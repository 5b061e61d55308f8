import ExynosVendor.Telephony.Rfs.ReadTransfer
import ExynosVendor.Telephony.Rfs.Session

/-!
# Writing a file

A request is answered by asking for the bytes, and they come in responses
that are written where the descriptor stands. A file that `Open` has found
is written from the offset on; one it has created is opened to append, and
there the offset does not count. `wrote_iff` says when the two are the
same.
-/

namespace ExynosVendor.Rfs

open Ril (BYTE)
open Descriptor Machine
open List

variable (md5 : List BYTE → List BYTE)

/-! ## What is to hold -/

/-- Chunks, as the responses of a transaction. -/
def responses (id : U32) (tid : BitVec 16) (chunks : List (List BYTE × Outcome)) :
    List (Packet × Outcome) :=
  chunks.map fun c => (⟨tid, .write statusSuccess id c.1⟩, c.2)

/-- The bytes of chunks. -/
def bytesOf (chunks : List (List BYTE × Outcome)) : List BYTE := chunks.flatMap Prod.fst

/-- A write transaction: the request, and the responses to it. -/
def Slot.transact (s : Slot) (id : U32) (tid : BitVec 16) (offset length : U32) (w : Outcome)
    (chunks : List (List BYTE × Outcome)) : Slot :=
  (responses id tid chunks).foldl (Slot.feed md5 id)
    (s.feed md5 id (⟨tid, .ioRequest id offset length ioWrite⟩, w))

/-- Success was reported for a transaction. -/
def Succeeds (id : U32) (tid : BitVec 16) (s s' : Slot) : Prop :=
  Message.status tid id statusSuccess ∈ s'.sent.drop s.sent.length

instance (id : U32) (tid : BitVec 16) (s s' : Slot) : Decidable (Succeeds id tid s s') :=
  inferInstanceAs (Decidable (_ ∈ _))

/-- **A write transaction as it is to be**: the bytes are in the file at
the offset, and a read of the same range returns them. -/
def Wrote (s : Slot) (id : U32) (name : Name) (content : List BYTE) (offset length : U32)
    (bytes : List BYTE) : Prop :=
  s.sys.files name = some (File.write 0 content offset.toNat bytes) ∧
    ∀ tid, Returns md5 s id tid offset length bytes

/-! ## The transaction -/

/-- What a file holds when bytes were written through a descriptor that
appends, or through one that was moved to an offset. -/
def placed (append : Bool) (content : List BYTE) (offset : ℕ) (bytes : List BYTE) : List BYTE :=
  if append then content ++ bytes else File.write 0 content offset bytes

section Transaction

variable {id : U32} {tid : BitVec 16} {name : Name} {append : Bool} {content : List BYTE}
variable {offset length before : ℕ} {m : Machine}

/-- **While the transfer is pending**: these bytes are in the file. -/
structure Writing (id : U32) (tid : BitVec 16) (name : Name) (append : Bool)
    (content : List BYTE) (offset length before : ℕ) (done : List BYTE) (m : Machine) : Prop where
  ident : m.ident = (.rfsFile, id, 0)
  mState : m.obj.mState ≠ .closed
  mTransaction : m.obj.mTransaction = tid
  mLastIo : m.obj.mLastIo = .write
  mWriteLength : m.obj.mWriteLength + done.length = length
  find : ∃ pos, m.sys.find m.obj.mFd = some ⟨name, pos, append, true⟩ ∧
    (append = false → pos = offset + done.length)
  content : m.sys.files name = some (placed append content offset done)
  sent : before ≤ m.sent.length
  silent : Message.status tid id statusSuccess ∉ m.sent.drop before

/-- **When all bytes are in the file.** -/
structure Ended (id : U32) (name : Name) (content : List BYTE) (m : Machine) : Prop where
  ident : m.ident = (.rfsFile, id, 0)
  mState : m.obj.mState ≠ .closed
  mLastIo : m.obj.mLastIo = .none
  find : ∃ e, m.sys.find m.obj.mFd = some e ∧ e.name = name
  content : m.sys.files name = some content

/-- **When bytes were lost**: more are asked for than will come. -/
structure Stuck (id : U32) (tid : BitVec 16) (before left : ℕ) (m : Machine) : Prop where
  ident : m.ident = (.rfsFile, id, 0)
  mState : m.obj.mState ≠ .closed
  mTransaction : m.obj.mTransaction = tid
  mLastIo : m.obj.mLastIo = .write
  mWriteLength : left < m.obj.mWriteLength
  sent : before ≤ m.sent.length
  silent : Message.status tid id statusSuccess ∉ m.sent.drop before

theorem placed_append (a b : List BYTE) :
    placed append content offset (a ++ b) =
      File.write 0 (placed append content offset a)
        (if append then (placed append content offset a).length else offset + a.length) b := by
  unfold placed
  cases append with
  | true =>
    show content ++ (a ++ b) = File.write 0 (content ++ a) (content ++ a).length b
    rw [File.write_end, append_assoc]
  | false => exact (File.write_append 0 content offset a b).symm

theorem placed_nil : placed append content offset [] = content := by
  cases append with
  | true => exact append_nil content
  | false =>
    show File.write 0 content offset [] = content
    exact if_pos rfl

theorem not_mem_drop_append {messages : List Message} {msg : Message}
    (hle : before ≤ m.sent.length) (h : msg ∉ m.sent.drop before) (hnew : msg ∉ messages) :
    msg ∉ (m.sent ++ messages).drop before := by
  rw [drop_append_of_le_length hle, mem_append]
  rintro (hmem | hmem)
  · exact h hmem
  · exact hnew hmem

/-- A write response reaches an opened file unless another transaction is
pending. -/
theorem feed_response (hident : m.ident = (.rfsFile, id, 0)) (hs : m.obj.mState ≠ .closed)
    (htid : m.obj.mLastIo ≠ .none → m.obj.mTransaction = tid) (status : U32) (data : List BYTE)
    (w : Outcome) :
    (Slot.of m).feed md5 id (⟨tid, .write status id data⟩, w) =
      .of (m.writeResponse md5 w status id data) := by
  have hcls : m.obj.cls = .rfsFile := congrArg Prod.fst hident
  have hblocked : ¬ m.blocked ⟨tid, .write status id data⟩ := by
    rintro ⟨hio, ⟨hne, -⟩ | hp⟩
    · exact hne (htid hio)
    · exact Bool.noConfusion hp
  have hstate : (m.writeResponse md5 w status id data).obj.mState ≠ .closed := by
    rw [(sameFile_writeResponse md5 w hcls status id data).mState]
    exact hs
  have hprocess : m.processMessage md5 w ⟨tid, .write status id data⟩ =
      (m.writeResponse md5 w status id data, .keep) := by
    rw [processMessage_unblocked md5 hblocked (by simp), hcls]
    exact (if_neg hs).trans (finish_opened hstate)
  rw [feed_of md5 id (by rw [hprocess]), hprocess]

/-- **The step of a transfer.** A response is in the file, and the transfer
goes on or ends; or the system did not take all of it. -/
theorem Writing.response {done : List BYTE}
    (h : Writing id tid name append content offset length before done m) (data : List BYTE)
    (w : Outcome) (hlen : data.length + done.length ≤ length) :
    ∃ m', (Slot.of m).feed md5 id (⟨tid, .write statusSuccess id data⟩, w) = .of m' ∧
      (Writing id tid name append content offset length before (done ++ data) m' ∨
        data.length + done.length = length ∧
          Ended id name (placed append content offset (done ++ data)) m' ∨
        data ≠ [] ∧ Stuck id tid before (length - (data.length + done.length)) m') := by
  refine ⟨_, feed_response md5 h.ident h.mState (fun _ => h.mTransaction) _ _ _, ?_⟩
  have hcls : m.obj.cls = .rfsFile := congrArg Prod.fst h.ident
  have hid : m.obj.mId = id := congrArg (·.2.1) h.ident
  have hleft := h.mWriteLength
  have hle : data.length ≤ m.obj.mWriteLength := by omega
  obtain ⟨pos, hfind, hpos⟩ := h.find
  have hcontent : m.sys.content ⟨name, pos, append, true⟩ = placed append content offset done := by
    unfold System.content
    rw [h.content]
    rfl
  by_cases htaken : (m.sys.write 0 m.obj.mFd data w.writeLimit).2 = some data.length
  · obtain ⟨hfind', hfiles⟩ := System.written_all hfind rfl htaken
    have hplaced : (m.sys.write 0 m.obj.mFd data w.writeLimit).1.files name =
        some (placed append content offset (done ++ data)) := by
      rw [hfiles, hcontent, placed_append]
      unfold System.start
      rw [hcontent]
      cases append with
      | true => rfl
      | false => rw [hpos rfl]
    rw [writeResponse_of_taken md5 h.mLastIo hid hle htaken,
      written_rfsFile md5 w (m := ⟨m.obj, afterWrite m w data, m.sent⟩) hcls]
    by_cases hmore : m.obj.mWriteLength - data.length ≠ 0
    · rw [if_pos hmore]
      refine Or.inl ⟨h.ident, h.mState, h.mTransaction, h.mLastIo, ?_, ⟨_, hfind', ?_⟩, hplaced, ?_,
        not_mem_drop_append h.sent h.silent (by simp)⟩
      · show m.obj.mWriteLength - data.length + (done ++ data).length = length
        rw [length_append]
        omega
      · rintro rfl
        show pos + data.length = _
        rw [hpos rfl, length_append, Nat.add_assoc]
      · show before ≤ (m.sent ++ [_]).length
        rw [length_append]
        exact Nat.le_trans h.sent (Nat.le_add_right _ _)
    · rw [if_neg hmore]
      exact Or.inr (Or.inl ⟨by omega, h.ident, h.mState, rfl, ⟨_, hfind', rfl⟩, hplaced⟩)
  · rw [writeResponse_of_not_taken md5 h.mLastIo hid hle htaken]
    have hsent : before ≤ (m.sent ++ [Message.status m.obj.mTransaction m.obj.mId
        statusWriteFail]).length := by
      rw [length_append]
      exact Nat.le_trans h.sent (Nat.le_add_right _ _)
    have hsilent : Message.status tid id statusSuccess ∉
        (m.sent ++ [Message.status m.obj.mTransaction m.obj.mId statusWriteFail]).drop before :=
      not_mem_drop_append h.sent h.silent (by simp [statusSuccess, statusWriteFail])
    by_cases hdata : data = []
    · -- nothing was to be written, and nothing was
      subst hdata
      have hsame : afterWrite m w [] = m.sys := System.write_nothing hfind rfl htaken
      rw [append_nil, hsame]
      exact Or.inl ⟨h.ident, h.mState, h.mTransaction, h.mLastIo, hleft, h.find, h.content, hsent,
        hsilent⟩
    · have hdatapos := length_pos_iff.mpr hdata
      refine Or.inr (Or.inr ⟨hdata, h.ident, h.mState, h.mTransaction, h.mLastIo, ?_, hsent,
        hsilent⟩)
      show length - (data.length + done.length) < m.obj.mWriteLength
      omega

/-- A transfer that has lost bytes does not end. -/
theorem Stuck.response {left : ℕ} (h : Stuck id tid before left m) (data : List BYTE)
    (w : Outcome) (hlen : data.length ≤ left) :
    ∃ m', (Slot.of m).feed md5 id (⟨tid, .write statusSuccess id data⟩, w) = .of m' ∧
      Stuck id tid before (left - data.length) m' := by
  refine ⟨_, feed_response md5 h.ident h.mState (fun _ => h.mTransaction) _ _ _, ?_⟩
  have hcls : m.obj.cls = .rfsFile := congrArg Prod.fst h.ident
  have hid : m.obj.mId = id := congrArg (·.2.1) h.ident
  have hleft := h.mWriteLength
  have hsent : ∀ msg, before ≤ (m.sent ++ [msg]).length := by
    intro msg
    rw [length_append]
    exact Nat.le_trans h.sent (Nat.le_add_right _ _)
  by_cases htaken : (m.sys.write 0 m.obj.mFd data w.writeLimit).2 = some data.length
  · rw [writeResponse_of_taken md5 h.mLastIo hid (by omega) htaken,
      written_rfsFile md5 w (m := ⟨m.obj, afterWrite m w data, m.sent⟩) hcls,
      if_pos (show m.obj.mWriteLength - data.length ≠ 0 by omega)]
    refine ⟨h.ident, h.mState, h.mTransaction, h.mLastIo, ?_, hsent _,
      not_mem_drop_append h.sent h.silent (by simp)⟩
    show left - data.length < m.obj.mWriteLength - data.length
    omega
  · rw [writeResponse_of_not_taken md5 h.mLastIo hid (by omega) htaken]
    exact ⟨h.ident, h.mState, h.mTransaction, h.mLastIo, Nat.lt_of_le_of_lt (Nat.sub_le _ _) hleft,
      hsent _, not_mem_drop_append h.sent h.silent (by simp [statusSuccess, statusWriteFail])⟩

theorem Ended.response (h : Ended id name content m) (tid : BitVec 16) (data : List BYTE)
    (w : Outcome) :
    ∃ m', (Slot.of m).feed md5 id (⟨tid, .write statusSuccess id data⟩, w) = .of m' ∧
      Ended id name content m' ∧
      m'.sent = m.sent ++ [.status m.obj.mTransaction m.obj.mId statusInvalidParam] := by
  refine ⟨_, feed_response md5 h.ident h.mState (fun hio => absurd h.mLastIo hio) _ _ _, ?_⟩
  have hrefused : m.writeResponse md5 w statusSuccess id data = m.status statusInvalidParam :=
    if_pos (by simp [h.mLastIo])
  rw [hrefused]
  exact ⟨⟨h.ident, h.mState, h.mLastIo, h.find, h.content⟩, rfl⟩

/-! ## The responses to a request -/

theorem responses_cons (data : List BYTE) (w : Outcome) (chunks : List (List BYTE × Outcome)) :
    responses id tid ((data, w) :: chunks) =
      (⟨tid, .write statusSuccess id data⟩, w) :: responses id tid chunks := rfl

theorem bytesOf_cons (data : List BYTE) (w : Outcome) (chunks : List (List BYTE × Outcome)) :
    bytesOf ((data, w) :: chunks) = data ++ bytesOf chunks := rfl

theorem Ended.run (h : Ended id name content m) (tid : BitVec 16)
    (chunks : List (List BYTE × Outcome)) (hle : before ≤ m.sent.length) :
    ∃ m', (responses id tid chunks).foldl (Slot.feed md5 id) (.of m) = .of m' ∧
      Ended id name content m' ∧
      (Message.status tid id statusSuccess ∉ m.sent.drop before →
        Message.status tid id statusSuccess ∉ m'.sent.drop before) := by
  induction chunks generalizing m with
  | nil => exact ⟨m, rfl, h, fun hm => hm⟩
  | cons c chunks ih =>
    obtain ⟨m₁, hfeed, hended, hsent⟩ := h.response md5 tid c.1 c.2
    have hle₁ : before ≤ m₁.sent.length := by
      rw [hsent, length_append]
      exact Nat.le_trans hle (Nat.le_add_right _ _)
    obtain ⟨m', hm', hend, hsilent⟩ := ih hended hle₁
    refine ⟨m', ?_, hend, fun hnot => hsilent ?_⟩
    · rw [responses_cons, foldl_cons, hfeed]
      exact hm'
    · rw [hsent]
      exact not_mem_drop_append hle hnot (by simp [statusSuccess, statusInvalidParam])

theorem Stuck.run {chunks : List (List BYTE × Outcome)}
    (h : Stuck id tid before (bytesOf chunks).length m) :
    ∃ m', (responses id tid chunks).foldl (Slot.feed md5 id) (.of m) = .of m' ∧
      Message.status tid id statusSuccess ∉ m'.sent.drop before := by
  induction chunks generalizing m with
  | nil => exact ⟨m, rfl, h.silent⟩
  | cons c chunks ih =>
    obtain ⟨data, w⟩ := c
    rw [bytesOf_cons, length_append] at h
    obtain ⟨m₁, hfeed, hstuck⟩ := h.response md5 data w (Nat.le_add_right _ _)
    rw [Nat.add_sub_cancel_left] at hstuck
    rw [responses_cons, foldl_cons, hfeed]
    exact ih hstuck

/-- **The run of a transfer.** If it ends with success, the bytes are all
in the file. -/
theorem Writing.run {done : List BYTE}
    (h : Writing id tid name append content offset length before done m)
    (chunks : List (List BYTE × Outcome))
    (hsum : (bytesOf chunks).length + done.length = length) :
    ∃ m', (responses id tid chunks).foldl (Slot.feed md5 id) (.of m) = .of m' ∧
      (Message.status tid id statusSuccess ∈ m'.sent.drop before →
        Ended id name (placed append content offset (done ++ bytesOf chunks)) m') := by
  induction chunks generalizing m done with
  | nil => exact ⟨m, rfl, fun hm => absurd hm h.silent⟩
  | cons c chunks ih =>
    obtain ⟨data, w⟩ := c
    rw [bytesOf_cons, length_append] at hsum
    obtain ⟨m₁, hfeed, hnext⟩ := h.response md5 data w (by omega)
    rw [responses_cons, foldl_cons, hfeed, bytesOf_cons]
    rcases hnext with hnext | ⟨hall, hended⟩ | ⟨-, hstuck⟩
    · obtain ⟨m', hm', hend⟩ := ih hnext (by rw [length_append]; omega)
      refine ⟨m', hm', fun hmem => ?_⟩
      rw [← append_assoc]
      exact hend hmem
    · -- what is left is empty
      have hnil : bytesOf chunks = [] := eq_nil_of_length_eq_zero (by omega)
      obtain ⟨m', hm', hend, -⟩ :=
        hended.run md5 tid chunks (Nat.zero_le m₁.sent.length)
      refine ⟨m', hm', fun _ => ?_⟩
      rw [hnil, append_nil]
      exact hend
    · rw [show length - (data.length + done.length) = (bytesOf chunks).length by omega] at hstuck
      obtain ⟨m', hm', hsilent⟩ := hstuck.run md5
      exact ⟨m', hm', fun hmem => absurd hmem hsilent⟩

/-! ## The request -/

variable {off len : U32}

theorem processMessage_writeRequest (w : Outcome) (hident : m.ident = (.rfsFile, id, 0))
    (hs : m.obj.mState ≠ .closed) (hio : m.obj.mLastIo = .none) :
    (Slot.of m).feed md5 id (⟨tid, .ioRequest id off len ioWrite⟩, w) =
      .of ((m.setTransaction tid).writeRequest off len) := by
  have hcls : m.obj.cls = .rfsFile := congrArg Prod.fst hident
  obtain rfl : m.obj.mId = id := congrArg (·.2.1) hident
  have hstate : ((m.setTransaction tid).writeRequest off len).obj.mState ≠ .closed := by
    rw [(sameFile_writeRequest _ off len).mState]
    exact hs
  have hprocess : m.processMessage md5 w ⟨tid, .ioRequest m.obj.mId off len ioWrite⟩ =
      ((m.setTransaction tid).writeRequest off len, .keep) := by
    rw [processMessage_ioRequest md5 hs hio ⟨by simp [hcls], by simp [hcls]⟩]
    exact finish_opened hstate
  rw [feed_of md5 _ (by rw [hprocess]), hprocess]

/-- **A request starts a transfer**, or is refused because of its offset. -/
theorem Writing.requested (h : Serving id name append m) (hs : m.obj.mState ≠ .closed)
    (hio : m.obj.mLastIo = .none) {pos : ℕ}
    (hfind : m.sys.find m.obj.mFd = some ⟨name, pos, append, true⟩)
    (hcontent : m.sys.files name = some content) (tid : BitVec 16) (off len : U32)
    (w : Outcome) :
    ∃ m', (Slot.of m).feed md5 id (⟨tid, .ioRequest id off len ioWrite⟩, w) = .of m' ∧
      (off.toNat < 2 ^ 31 ∧
          Writing id tid name append content off.toNat len.toNat m.sent.length [] m' ∨
        Ended id name content m' ∧ m.sent.length ≤ m'.sent.length ∧
          Message.status tid id statusSuccess ∉ m'.sent.drop m.sent.length) := by
  refine ⟨_, processMessage_writeRequest md5 w h.ident hs hio, ?_⟩
  have hfind' : ((m.setTransaction tid).aimWrite off len).sys.find m.obj.mFd =
      some ⟨name, off.toNat, append, true⟩ := System.find_seek hfind off.toNat
  have hcontent' : ((m.setTransaction tid).aimWrite off len).sys.files name = some content :=
    (congrFun (System.files_seek _ _ _) name).trans hcontent
  have hlive : (m.setTransaction tid).sys.Live (m.setTransaction tid).obj.mFd := by
    show (m.sys.find m.obj.mFd).isSome
    rw [hfind]
    rfl
  have hlonger : ∀ msg, m.sent.length ≤ (m.sent ++ [msg]).length := by
    intro msg
    rw [length_append]
    exact Nat.le_add_right _ _
  have hsilent : ∀ msg, msg ≠ Message.status tid id statusSuccess →
      Message.status tid id statusSuccess ∉ (m.sent ++ [msg]).drop m.sent.length := by
    intro msg hne
    rw [drop_left, mem_singleton]
    exact hne.symm
  unfold Machine.writeRequest
  by_cases hoff : off.toNat < 2 ^ 31
  · rw [if_pos ⟨hlive, (toInt_nonneg_iff off).mpr hoff⟩]
    refine Or.inl ⟨hoff, h.ident, hs, rfl, rfl, rfl, ⟨_, hfind', fun _ => rfl⟩, ?_, hlonger _,
      hsilent _ (by simp)⟩
    rw [placed_nil]
    exact hcontent'
  · rw [if_neg fun hc => hoff ((toInt_nonneg_iff off).mp hc.2)]
    exact Or.inr ⟨⟨h.ident, hs, hio, ⟨_, hfind', rfl⟩, hcontent'⟩, hlonger _,
      hsilent _ (by simp [statusSuccess, statusWriteFail])⟩

/-- When the bytes are all in the file at the offset, a read finds them. -/
theorem Ended.returns {bytes : List BYTE}
    (h : Ended id name (File.write 0 content off.toNat bytes) m) (hoff : off.toNat < 2 ^ 31)
    (hlen : bytes.length = len.toNat) (tid : BitVec 16) :
    Returns md5 (.of m) id tid off len bytes := by
  have hcls : m.obj.cls = .rfsFile := congrArg Prod.fst h.ident
  obtain rfl : m.obj.mId = id := congrArg (·.2.1) h.ident
  obtain ⟨e, hfind, hname⟩ := h.find
  have hcontent : m.sys.content e = File.write 0 content off.toNat bytes := by
    unfold System.content
    rw [hname, h.content]
    rfl
  have hat : ∃ pos, At (File.write 0 content off.toNat bytes) pos m :=
    ⟨e.pos, ⟨e, hfind, hcontent, rfl, by simp [hcls]⟩, h.mState⟩
  have hfits : 0 < len.toNat →
      off.toNat + len.toNat ≤ (File.write 0 content off.toNat bytes).length := by
    intro hpos
    have hne : bytes ≠ [] := length_pos_iff.mp (by omega)
    rw [File.length_write 0 off.toNat hne, hlen]
    exact Nat.le_max_right _ _
  have hreturns := returns_of_at md5 hat h.mLastIo tid ⟨by simp [hcls], by simp [hcls]⟩ hoff hfits
  rwa [← hlen, File.load_write_self] at hreturns

end Transaction

/-! ## Which files take a write -/

/-- **When a write does what it is to do.** For every file opened in a
session, whatever came before, every request, every way the modem cuts the
bytes and the system takes them: if success is reported, the bytes are in
the file at the offset and are read back exactly when `Open` had found the
file, or there are none, or the offset is the end of the file. -/
theorem wrote_iff {id : U32} {name : Name} {s₀ s : Slot} {o : RfsFile} {e : Description Name}
    (hgeneric : fileClass id = .rfsFile) (hsession : Session md5 id name s₀ s)
    (hopened : Opened s o e) (tid : BitVec 16) {offset length : U32} (w : Outcome)
    (chunks : List (List BYTE × Outcome)) (hsum : (bytesOf chunks).length = length.toNat)
    (hsucceeds : Succeeds id tid s (s.transact md5 id tid offset length w chunks)) :
    Wrote md5 (s.transact md5 id tid offset length w chunks) id name (s.sys.content e) offset
        length (bytesOf chunks) ↔
      s₀.sys.files name ≠ none ∨ length = 0 ∨ offset.toNat = (s.sys.content e).length := by
  obtain ⟨m, rfl, hserving⟩ := hsession.serving md5 hgeneric
  obtain rfl : m.obj = o := Option.some.inj hopened.file
  have hfind : m.sys.find m.obj.mFd = some e := hopened.find
  obtain ⟨d, hd⟩ : ∃ d, m.obj.mFd = some d := by
    cases hfd : m.obj.mFd with
    | none => exact absurd (hfd ▸ hfind) (by simp)
    | some d => exact ⟨d, rfl⟩
  obtain ⟨hhow, hexists⟩ := hserving.fd d hd
  obtain ⟨hname, happend, hwritable⟩ := hhow.of_find (hd ▸ hfind)
  obtain ⟨content, hcontent⟩ := Option.ne_none_iff_exists'.mp hexists
  have he : e = ⟨name, e.pos, (s₀.sys.files name).isNone, true⟩ := by
    rw [← happend, ← hwritable, ← hname]
  have hold : m.sys.content e = content := by
    unfold System.content
    rw [hname, hcontent]
    rfl
  have hbytes : bytesOf chunks = [] ↔ length = 0 := by
    rw [← length_eq_zero_iff, hsum]
    exact ⟨fun h => BitVec.eq_of_toNat_eq h, fun h => by rw [h]; rfl⟩
  obtain ⟨m₁, hrequest, hnext⟩ := Writing.requested md5 hserving hopened.mState
    hopened.mLastIo (he ▸ hfind) hcontent tid offset length w
  have hof : (Slot.of m).sys.content e = content := hold
  rw [hof]
  unfold Slot.transact at hsucceeds ⊢
  rw [hrequest] at hsucceeds ⊢
  rcases hnext with ⟨hoff, hwriting⟩ | ⟨hended, hle, hsilent⟩
  · obtain ⟨m', hm', hend⟩ := hwriting.run md5 chunks hsum
    rw [hm'] at hsucceeds ⊢
    have hended := hend hsucceeds
    rw [nil_append] at hended
    have hfile : m'.sys.files name =
        some (placed (s₀.sys.files name).isNone content offset.toNat (bytesOf chunks)) :=
      hended.content
    cases hcreated : s₀.sys.files name with
    | some bytes =>
      rw [hcreated] at hended
      exact iff_of_true ⟨hended.content, hended.returns md5 hoff hsum⟩
        (Or.inl (Option.some_ne_none _))
    | none =>
      rw [hcreated] at hended hfile
      have hfile' : m'.sys.files name = some (content ++ bytesOf chunks) := hfile
      have hiff := File.append_eq_write_iff 0 content offset.toNat (bytesOf chunks)
      rw [hbytes] at hiff
      constructor
      · rintro ⟨hwrote, -⟩
        exact Or.inr (hiff.mp (Option.some.inj (hfile'.symm.trans hwrote)))
      · rintro (hne | hcond)
        · exact absurd rfl hne
        · have heq := hiff.mpr hcond
          have hended' : Ended id name (content ++ bytesOf chunks) m' := hended
          rw [heq] at hended'
          exact ⟨hended'.content, hended'.returns md5 hoff hsum⟩
  · -- the request was refused, and so is every response
    obtain ⟨m', hm', -, hnever⟩ := hended.run md5 tid chunks hle
    rw [hm'] at hsucceeds
    exact absurd hsucceeds (hnever hsilent)

/-- A file opened and confirmed. -/
def openedNow (files : Name → Option (List BYTE)) : Slot :=
  [Input.packet ⟨1, .openFile 5 (text "a")⟩ willing,
    .packet ⟨1, .opStatus statusSuccess 5⟩ willing].foldl (Slot.step id 5) (Slot.start files)

theorem session_openedNow {files : Name → Option (List BYTE)}
    (hbegun : ((Slot.start files).step id 5
      (.packet ⟨1, .openFile 5 (text "a")⟩ willing)).file ≠ none)
    (hnow : (openedNow files).file ≠ none) :
    Session id 5 (text "a") (Slot.start files) (openedNow files) := by
  have hfold : openedNow files = ((Slot.start files).step id 5
      (.packet ⟨1, .openFile 5 (text "a")⟩ willing)).step id 5
        (.packet ⟨1, .opStatus statusSuccess 5⟩ willing) := by
    rw [openedNow, foldl_cons, foldl_cons, foldl_nil]
  rw [hfold] at hnow
  refine ⟨⟨files, [], rfl⟩, rfl, rfl, 1, willing, [.packet ⟨1, .opStatus statusSuccess 5⟩ willing],
    ⟨hbegun, hnow⟩, ?_⟩
  rw [hfold, foldl_cons, foldl_nil]

/-- Two chunks in the middle of a file that was there. -/
theorem wrote_existing :
    let s := openedNow fun name => if name = text "a" then some [1, 2, 3, 4] else none
    Wrote id (s.transact id 5 2 1 2 willing [([8], willing), ([9], willing)]) 5 (text "a") [1, 2, 3, 4]
      1 2 [8, 9] := by
  have hopened : Opened (openedNow fun name => if name = text "a" then some [1, 2, 3, 4] else none)
      { allocFile 5 with mFd := some 0, mState := .opened, mTransaction := 1 }
      ⟨text "a", 0, false, true⟩ := ⟨by decide, by decide, by decide, by decide, by decide⟩
  exact (wrote_iff id (by decide) (session_openedNow (by decide) (by decide)) hopened 2 willing
    [([8], willing), ([9], willing)] (by decide) (by decide)).mpr (Or.inl (by decide))

/-- **A file that `Open` has created is not written at the offset.** The
byte is to stand behind one of the gap, and stands at the front. -/
theorem not_wrote_created :
    ∃ o e, Session id 5 (text "a") (Slot.start fun _ => none) (openedNow fun _ => none) ∧
      Opened (openedNow fun _ => none) o e ∧
      let s := openedNow fun _ => none
      Succeeds 5 2 s (s.transact id 5 2 1 1 willing [([7], willing)]) ∧
        ¬ Wrote id (s.transact id 5 2 1 1 willing [([7], willing)]) 5 (text "a") (s.sys.content e) 1 1
          [7] := by
  refine ⟨{ allocFile 5 with mFd := some 0, mState := .opened, mTransaction := 1 },
    ⟨text "a", 0, true, true⟩, session_openedNow (by decide) (by decide),
    ⟨by decide, by decide, by decide, by decide, by decide⟩, by decide, ?_⟩
  rintro ⟨hfile, -⟩
  exact absurd hfile (by decide)

end ExynosVendor.Rfs
