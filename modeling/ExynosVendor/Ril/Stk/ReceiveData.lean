import ExynosVendor.Ril.Util.Hex

/-!
# The receive path of a BIP channel

`CSocket::Run` stores what it received at the front of the module's
buffer and sets the length; `CStkModule::ReceiveData` hands the card the
next bytes, as hex text, and reports how many are left. Between the two
stand a length, an offset and the buffer. The offset is cleared in one
branch only, by a command that finds nothing to hand over, and that
branch sends no response.

Over it stands the queue the channel is meant to be: a reception appends
its block, a command takes from the front. `losesNothing_iff` compares
the two over whole histories.
-/

namespace ExynosVendor.Ril

open List Option

def defaultBufferSize : ℕ := 1400

def receiveDataMaxTrLen : ℕ := 255

/-- The receive side of `CStkModule`. -/
structure ReceiveState where
  /-- `m_szReceiveDataBuffer`. -/
  szReceiveDataBuffer : List BYTE
  /-- `m_nRxBufferLen`. -/
  nRxBufferLen : ℕ
  /-- `m_nReceiveDataOffset`. -/
  nReceiveDataOffset : ℕ

/-- One call of `SendReceiveDataResponse`: the hex string and the
reported length. -/
structure ReceiveDataResponse where
  /-- `strData`. -/
  strData : List Char
  /-- `nLen`. -/
  nLen : ℕ
  deriving DecidableEq

namespace ReceiveState

/-- The constructor's state. -/
def initialized : ReceiveState where
  szReceiveDataBuffer := List.replicate defaultBufferSize 0
  nRxBufferLen := 0
  nReceiveDataOffset := 0

def setReceiveDataLen (s : ReceiveState) (nRxDataLen : ℕ) : ReceiveState :=
  { s with nRxBufferLen := nRxDataLen }

/-- A reception in `CSocket::Run`: the block lands at the front of the
buffer. -/
def socketRun (s : ReceiveState) (block : List BYTE) : Option ReceiveState := do
  let buffer ← Block.store s.szReceiveDataBuffer 0 block
  some ({ s with szReceiveDataBuffer := buffer }.setReceiveDataLen block.length)

/-- `CStkModule::ReceiveData` for a command that asks for
`nRequestedChnDataLenFromUicc` bytes: the new state and the responses it
sends. -/
def receiveData (s : ReceiveState) (nRequestedChnDataLenFromUicc : ℕ) :
    Option (ReceiveState × List ReceiveDataResponse) :=
  let nRemainDataLenFromNetwork := s.nRxBufferLen - s.nReceiveDataOffset
  if 0 < nRemainDataLenFromNetwork then do
    let nCurrent :=
      if nRequestedChnDataLenFromUicc < nRemainDataLenFromNetwork then nRequestedChnDataLenFromUicc
      else nRemainDataLenFromNetwork
    let szData ← Block.load s.szReceiveDataBuffer s.nReceiveDataOffset nCurrent
    let _ ← Block.store (List.replicate receiveDataMaxTrLen 0) 0 szData
    let (pszHexStr, nHexStrLen) ← value2HexString (List.replicate (nCurrent * 2 + 1) '\x00') szData
    if nHexStrLen < 0 then none
    else do
      let pszHexStr ← Block.put pszHexStr nHexStrLen.toNat '\x00'
      let nNextstep := nRemainDataLenFromNetwork - nCurrent
      let nLen :=
        if receiveDataMaxTrLen ≤ nNextstep then 0xFF else if 0 < nNextstep then nNextstep else 0
      some ({ s with nReceiveDataOffset := s.nReceiveDataOffset + nCurrent },
        [⟨cString pszHexStr, nLen⟩])
  else
    some ({ szReceiveDataBuffer := List.replicate defaultBufferSize 0
            nRxBufferLen := 0
            nReceiveDataOffset := 0 }, [])

end ReceiveState

/-! ## Histories -/

/-- What happens on the channel. -/
inductive ReceiveEvent where
  /-- A block arrives from the network. -/
  | reception (block : List BYTE)
  /-- The card asks for so many bytes. -/
  | command (nRequested : ℕ)

namespace ReceiveEvent

/-- The responses each command of a history gets. -/
def run (s : ReceiveState) : List ReceiveEvent → Option (List (List ReceiveDataResponse))
  | [] => some []
  | reception block :: es => do
      let s ← s.socketRun block
      run s es
  | command n :: es => do
      let (s, responses) ← s.receiveData n
      let rest ← run s es
      some (responses :: rest)

/-- The bytes received in a history. -/
def received : List ReceiveEvent → List BYTE
  | [] => []
  | reception block :: es => block ++ received es
  | command _ :: es => received es

/-! ### The queue the channel is meant to be -/

/-- The response a command is meant to get: the next bytes, and how many
are left up to 255. -/
def answer (unread : List BYTE) (n : ℕ) : ReceiveDataResponse where
  strData := hexText (unread.take n)
  nLen := min 255 (unread.drop n).length

/-- The bytes unread after a history. -/
def unreadAfter (unread : List BYTE) : List ReceiveEvent → List BYTE
  | [] => unread
  | reception block :: es => unreadAfter (unread ++ block) es
  | command n :: es => unreadAfter (unread.drop n) es

/-- The answers of a history. -/
def answers (unread : List BYTE) : List ReceiveEvent → List ReceiveDataResponse
  | [] => []
  | reception block :: es => answers (unread ++ block) es
  | command n :: es => answer unread n :: answers (unread.drop n) es

/-- The bytes a list of responses hands over. -/
def handedOver (rs : List ReceiveDataResponse) : List BYTE :=
  rs.flatMap fun r => hexBytes r.strData

/-- **The queue loses and duplicates nothing**: what it hands over and
what is left unread is what there was and what came in. -/
theorem answers_conserve (es : List ReceiveEvent) (unread : List BYTE) :
    handedOver (answers unread es) ++ unreadAfter unread es = unread ++ received es := by
  induction es generalizing unread with
  | nil => simp [answers, unreadAfter, received, handedOver]
  | cons e es ih =>
      cases e with
      | reception block =>
          rw [answers, unreadAfter, received, ih, append_assoc]
      | command n =>
          have h := ih (unread.drop n)
          rw [answers, unreadAfter, received]
          simp only [handedOver, flatMap_cons, answer, hexBytes_hexText, append_assoc] at h ⊢
          rw [h, ← append_assoc, take_append_drop]

/-- **A well-formed history**: blocks of at most 1024 bytes, each after
all earlier bytes have been fetched, and requests of 1 to 255 bytes. -/
def WellFormed (unread : List BYTE) : List ReceiveEvent → Prop
  | [] => True
  | reception block :: es => unread = [] ∧ block.length ≤ 1024 ∧ WellFormed block es
  | command n :: es => 1 ≤ n ∧ n ≤ 255 ∧ WellFormed (unread.drop n) es

/-- **The receive path loses and duplicates nothing in a history**: each
command gets exactly one response, the one the queue gives it, so what is
handed over and what is left unread is what came in. -/
def LosesNothing (es : List ReceiveEvent) : Prop :=
  ∃ responses, run ReceiveState.initialized es = some responses ∧
    responses = (answers [] es).map (fun r => [r]) ∧
    handedOver responses.flatten ++ unreadAfter [] es = received es

/-- The bytes a command is served are the right ones although the offset
is `h` too large: the block repeats itself at that distance, and so much
stays unread that the report is 255 either way. -/
def Coincides (h : ℕ) (unread : List BYTE) (n : ℕ) : Prop :=
  h + n + 255 ≤ unread.length ∧ (unread.drop h).take n = unread.take n

/-- **The histories served right.** Every command arrives while bytes are
unread, and either nothing was received before the current block or the
data coincide. `h` counts the bytes of the earlier receptions and `k`
those of the current one. -/
def Served (h k : ℕ) (unread : List BYTE) : List ReceiveEvent → Prop
  | [] => True
  | reception block :: es => Served (h + k) block.length block es
  | command n :: es =>
      unread ≠ [] ∧ (h = 0 ∨ Coincides h unread n) ∧ Served h k (unread.drop n) es

/-! ### The module against the queue -/

/-- **Where the module stands**: the current block of `k` bytes is at the
front of the buffer, its unread bytes are `unread`, and the offset counts
the `h` bytes of the earlier receptions as well. -/
structure Tracks (s : ReceiveState) (h k : ℕ) (unread : List BYTE) : Prop where
  /-- The buffer keeps its size. -/
  buffer_length : s.szReceiveDataBuffer.length = defaultBufferSize
  /-- A block fits it. -/
  block_le : k ≤ 1024
  /-- What is unread is part of the block. -/
  unread_le : unread.length ≤ k
  /-- The length is the block's. -/
  rxLen : s.nRxBufferLen = k
  /-- The offset is never taken back. -/
  offset : s.nReceiveDataOffset = h + (k - unread.length)
  /-- The unread bytes are the block's last. -/
  bytes : (s.szReceiveDataBuffer.drop (k - unread.length)).take unread.length = unread

theorem initialized_tracks : Tracks ReceiveState.initialized 0 0 [] where
  buffer_length := by simp [ReceiveState.initialized]
  block_le := Nat.zero_le _
  unread_le := Nat.le_refl _
  rxLen := rfl
  offset := rfl
  bytes := rfl

variable {s : ReceiveState} {unread : List BYTE}

/-- A reception starts a new block, and leaves the offset. -/
theorem socketRun_tracks {h k : ℕ} {block : List BYTE} (hs : Tracks s h k [])
    (hle : block.length ≤ 1024) :
    ∃ s', s.socketRun block = some s' ∧ Tracks s' (h + k) block.length block := by
  have hroom : block.length ≤ s.szReceiveDataBuffer.length := by
    rw [hs.buffer_length, defaultBufferSize]
    omega
  have hstore := Block.store_zero hroom
  refine ⟨_, by rw [ReceiveState.socketRun, hstore]; rfl, ?_⟩
  constructor
  · exact (Block.store_length hstore).trans hs.buffer_length
  · exact hle
  · exact Nat.le_refl _
  · rfl
  · simp only [ReceiveState.setReceiveDataLen, hs.offset, length_nil]
    omega
  · simp [ReceiveState.setReceiveDataLen]

/-- **A command is answered as if the first `h` unread bytes were
missing**, and not at all when there are no others. -/
theorem receiveData_eq {h k n : ℕ} (hs : Tracks s h k unread) (hpos : 1 ≤ n) (hmax : n ≤ 255)
    (hrest : h < unread.length) :
    s.receiveData n = some
      ({ s with nReceiveDataOffset := s.nReceiveDataOffset + min n (unread.length - h) },
        [answer (unread.drop h) n]) := by
  have hle := hs.unread_le
  have hblock := hs.block_le
  have hremain : s.nRxBufferLen - s.nReceiveDataOffset = unread.length - h := by
    rw [hs.rxLen, hs.offset]
    omega
  have hcur : (if n < unread.length - h then n else unread.length - h) =
      min n (unread.length - h) := by
    split <;> omega
  have hbytes : Block.load s.szReceiveDataBuffer s.nReceiveDataOffset (min n (unread.length - h)) =
      some ((unread.drop h).take n) := by
    have hin : s.nReceiveDataOffset + min n (unread.length - h) ≤
        s.szReceiveDataBuffer.length := by
      rw [hs.offset, hs.buffer_length, defaultBufferSize]
      omega
    have hsplit : s.nReceiveDataOffset = k - unread.length + h := by
      rw [hs.offset]
      omega
    rw [Block.load_of_le hin, hsplit, ← drop_drop]
    conv_rhs => rw [← hs.bytes]
    rw [drop_take, take_take]
  have hszlen : ((unread.drop h).take n).length = min n (unread.length - h) := by
    rw [length_take, length_drop]
  have hne : (unread.drop h).take n ≠ [] := by
    rw [← length_pos_iff, hszlen]
    omega
  have hstack : (Block.store (List.replicate receiveDataMaxTrLen 0) 0
      ((unread.drop h).take n)).isSome := by
    rw [Block.store_isSome_iff, hszlen, length_replicate, receiveDataMaxTrLen]
    omega
  obtain ⟨stack, hstack⟩ := isSome_iff_exists.mp hstack
  have hhex : value2HexString (List.replicate (min n (unread.length - h) * 2 + 1) '\x00')
      ((unread.drop h).take n) =
        some (hexText ((unread.drop h).take n) ++ ['\x00'],
          ((2 * min n (unread.length - h) : ℕ) : ℤ)) := by
    rw [value2HexString_eq hne (by rw [hszlen, length_replicate]; omega), hszlen]
    simp [Nat.mul_comm]
  have hput : Block.put (hexText ((unread.drop h).take n) ++ ['\x00'])
      (2 * min n (unread.length - h)) '\x00' =
        some (hexText ((unread.drop h).take n) ++ ['\x00']) := by
    have hlen : 2 * min n (unread.length - h) = (hexText ((unread.drop h).take n)).length := by
      rw [hexText_length, hszlen]
    rw [hlen, Block.put_behind (by simp)]
    simp
  have hnonneg : ¬ ((2 * min n (unread.length - h) : ℕ) : ℤ) < 0 := by omega
  have hnext : (if receiveDataMaxTrLen ≤ unread.length - h - min n (unread.length - h) then 0xFF
      else if 0 < unread.length - h - min n (unread.length - h) then
        unread.length - h - min n (unread.length - h) else 0) =
          min 255 ((unread.drop h).drop n).length := by
    rw [length_drop, length_drop, receiveDataMaxTrLen]
    split_ifs <;> omega
  have hpos : 0 < unread.length - h := by omega
  simp only [ReceiveState.receiveData, hremain, if_pos hpos, hcur, hbytes, hstack, hhex,
    bind_eq_bind, bind_some, if_neg hnonneg, Int.toNat_natCast, hput, hnext, answer,
    cString_hexText]

/-- And when no others are left, the command clears the state and gets no
response. -/
theorem receiveData_reset {h k : ℕ} (n : ℕ) (hs : Tracks s h k unread) (hrest : unread.length ≤ h) :
    s.receiveData n = some (ReceiveState.initialized, []) := by
  have hle := hs.unread_le
  have hremain : ¬ 0 < s.nRxBufferLen - s.nReceiveDataOffset := by
    rw [hs.rxLen, hs.offset]
    omega
  simp only [ReceiveState.receiveData, if_neg hremain, ReceiveState.initialized]

/-- **Missing bytes show**: an answer that leaves out the first `h` bytes
is the right one only where the data coincide. -/
theorem answer_drop_eq_iff {h n : ℕ} (hrest : h < unread.length) :
    answer (unread.drop h) n = answer unread n ↔ h = 0 ∨ Coincides h unread n := by
  constructor
  · intro heq
    rw [answer, answer, ReceiveDataResponse.mk.injEq] at heq
    obtain ⟨htext, hlen⟩ := heq
    have hbytes : (unread.drop h).take n = unread.take n := by
      rw [← hexBytes_hexText ((unread.drop h).take n), htext, hexBytes_hexText]
    have hcount := congrArg List.length hbytes
    simp only [length_take, length_drop] at hcount hlen
    by_cases hzero : h = 0
    · exact Or.inl hzero
    · exact Or.inr ⟨by omega, hbytes⟩
  · rintro (hzero | ⟨hfar, hbytes⟩)
    · rw [hzero, drop_zero]
    · have hlen : min 255 ((unread.drop h).drop n).length = min 255 (unread.drop n).length := by
        simp only [length_drop]
        omega
      rw [answer, answer, hbytes, hlen]

/-- After a right answer the module stands at the rest of the block. -/
theorem Tracks.drop {h k n : ℕ} (hs : Tracks s h k unread) (hright : h = 0 ∨ Coincides h unread n) :
    Tracks { s with nReceiveDataOffset := s.nReceiveDataOffset + min n (unread.length - h) } h k
      (unread.drop n) := by
  have hle := hs.unread_le
  have hadvance : min n (unread.length - h) = unread.length - (unread.drop n).length := by
    rw [length_drop]
    rcases hright with hzero | ⟨hfar, _⟩ <;> omega
  have hshort : (unread.drop n).length ≤ unread.length := by
    rw [length_drop]
    omega
  refine ⟨hs.buffer_length, hs.block_le, by omega, hs.rxLen, ?_, ?_⟩
  · simp only [hs.offset, hadvance]
    omega
  · -- the rest of the block is the rest of what was unread of it
    have hsplit : k - (unread.drop n).length =
        k - unread.length + (unread.length - (unread.drop n).length) := by omega
    have hdrop : unread.drop (unread.length - (unread.drop n).length) = unread.drop n := by
      rw [length_drop]
      by_cases hn : n ≤ unread.length
      · rw [Nat.sub_sub_self hn]
      · rw [drop_eq_nil_of_le (by omega), drop_eq_nil_of_le (by omega)]
    have hbytes := congrArg (List.drop (unread.length - (unread.drop n).length)) hs.bytes
    rw [drop_take, drop_drop, ← hsplit, hdrop, Nat.sub_sub_self hshort] at hbytes
    exact hbytes

variable {es : List ReceiveEvent}

/-- **One command**: where it is served right the rest of the history is
run from the rest of the block, and where it is not the responses
differ. -/
theorem run_command_iff {h k n : ℕ} {rs : List (List ReceiveDataResponse)}
    (hs : Tracks s h k unread) (hpos : 1 ≤ n) (hmax : n ≤ 255) :
    run s (command n :: es) = some ([answer unread n] :: rs) ↔
      unread ≠ [] ∧ (h = 0 ∨ Coincides h unread n) ∧
        run { s with nReceiveDataOffset := s.nReceiveDataOffset + min n (unread.length - h) } es =
          some rs := by
  by_cases hrest : h < unread.length
  · have hne : unread ≠ [] := by
      rw [← length_pos_iff]
      omega
    have hiff := answer_drop_eq_iff (n := n) hrest
    simp only [run, receiveData_eq hs hpos hmax hrest, bind_eq_bind, bind_some,
      bind_eq_some_iff, some.injEq, List.cons.injEq, and_true, ← hiff]
    constructor
    · rintro ⟨rest, hrun, hright, rfl⟩
      exact ⟨hne, hright, hrun⟩
    · rintro ⟨_, hright, hrun⟩
      exact ⟨rs, hrun, hright, rfl⟩
  · constructor
    · intro hrun
      simp only [run, receiveData_reset n hs (by omega), bind_eq_bind, bind_some,
        bind_eq_some_iff, some.injEq, List.cons.injEq] at hrun
      obtain ⟨_, _, hnone, _⟩ := hrun
      exact absurd hnone (cons_ne_nil _ _).symm
    · rintro ⟨hne, hright, _⟩
      have hlen : 0 < unread.length := length_pos_iff.mpr hne
      rcases hright with hzero | ⟨hfar, _⟩ <;> omega

/-- **A history is answered as the queue answers it exactly when it is
served right**, from any point of it. -/
theorem run_eq_answers_iff {h k : ℕ} (hs : Tracks s h k unread) (hwf : WellFormed unread es) :
    run s es = some ((answers unread es).map (fun r => [r])) ↔ Served h k unread es := by
  induction es generalizing s h k unread with
  | nil => simp [run, answers, Served]
  | cons e es ih =>
      cases e with
      | reception block =>
          obtain ⟨hfetched, hle, hrest⟩ := hwf
          subst hfetched
          obtain ⟨s', hreceive, hs'⟩ := socketRun_tracks hs hle
          simp only [run, hreceive, bind_eq_bind, bind_some, answers,
            nil_append, Served]
          exact ih hs' hrest
      | command n =>
          obtain ⟨hpos, hmax, hrest⟩ := hwf
          rw [answers, map_cons, run_command_iff hs hpos hmax, Served]
          constructor
          · rintro ⟨hne, hright, hrun⟩
            exact ⟨hne, hright, (ih (hs.drop hright) hrest).mp hrun⟩
          · rintro ⟨hne, hright, hserved⟩
            exact ⟨hne, hright, (ih (hs.drop hright) hrest).mpr hserved⟩

/-- **What the receive path loses nothing of.** A well-formed history is
answered as the queue answers it, one response a command and no byte
lost or repeated, exactly when every command arrives while bytes are
unread, and only the first non-empty reception is read, or the later
ones happen to coincide with the bytes the stale offset points at. -/
theorem losesNothing_iff (es : List ReceiveEvent) (hwf : WellFormed [] es) :
    LosesNothing es ↔ Served 0 0 [] es := by
  rw [← run_eq_answers_iff initialized_tracks hwf, LosesNothing]
  constructor
  · rintro ⟨responses, hrun, hanswers, _⟩
    rw [hrun, hanswers]
  · intro hrun
    refine ⟨_, hrun, rfl, ?_⟩
    have hflat : ((answers [] es).map (fun r => [r])).flatten = answers [] es := by
      rw [← flatMap_def, flatMap_singleton']
    rw [hflat, answers_conserve, nil_append]

/-- One reception of two bytes, fetched one by one. -/
theorem losesNothing_one_reception :
    LosesNothing [reception [1, 2], command 1, command 1] :=
  (losesNothing_iff _ (by simp [WellFormed])).mpr (by simp [Served])

/-- **The second reception is lost**: after a byte has been received and
fetched, the offset is one too large for the next byte, and the command
that asks for it gets no response. -/
theorem not_losesNothing_second_reception :
    ¬ LosesNothing [reception [1], command 1, reception [2], command 1] := by
  rintro ⟨responses, hrun, hanswers, _⟩
  have hcomputed : run ReceiveState.initialized
      [reception [1], command 1, reception [2], command 1] =
        some [[answer [1] 1], []] := by decide +kernel
  rw [hcomputed, some.injEq] at hrun
  rw [← hrun] at hanswers
  simp [answers] at hanswers

end ReceiveEvent

end ExynosVendor.Ril
