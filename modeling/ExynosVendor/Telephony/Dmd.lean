import ExynosVendor.Common.Cut
import ExynosVendor.Common.Run
import ExynosVendor.Ril.Basic

/-!
# From the USB line to the modem

`dmdWriteUsbToModem` of `dmd/dmd_main.cpp` and the loop around it. What is
read from the line is cut where `read` cuts it; what is left of a frame is
moved to the buffer's start and carried into the next call. `frames_iff`
says which cuts lead exactly the frames to the modem.
-/

namespace ExynosVendor.Dmd

open Ril (BYTE)
open List Option

def maxBuf : ℕ := 65536

/-- `DM_MSG_START`. -/
def msgStart : BYTE := 0x7F

/-- `DM_MSG_END`. -/
def msgEnd : BYTE := 0x7E

/-- The memory from the start of the buffer on. What nobody has written
holds anything. -/
abbrev Memory := ℕ → BYTE

namespace Memory

/-- So many bytes from an offset on. -/
def slice (mem : Memory) : ℕ → ℕ → List BYTE
  | _, 0 => []
  | i, n + 1 => mem i :: slice mem (i + 1) n

/-- `memcpy(buffer, buffer + src, n)`. -/
def moveFront (mem : Memory) (src n : ℕ) : Memory := fun k =>
  if k < n then mem (src + k) else mem k

/-- What `read` does to the memory at an offset. -/
def store (mem : Memory) (i : ℕ) (block : List BYTE) : Memory := fun k =>
  if i ≤ k then block.getD (k - i) (mem k) else mem k

end Memory

/-! ## One call -/

/-- The bytes `buffer[cur + 1] | (buffer[cur + 2] << 8)`; a `char` of the
vendor's targets has no sign. -/
def msgLen (lo hi : BYTE) : ℕ :=
  (lo.toNat ||| (hi.toNat <<< 8)) &&& 0xFFFF

/-- What a call leaves behind. -/
structure Call where
  /-- What it wrote to the modem, one list a `write`. -/
  written : List (List BYTE)
  /-- The memory. -/
  buffer : Memory
  /-- What it returns. -/
  ret : ℤ
  /-- One past the last byte of the buffer it has looked at. -/
  reach : ℕ

/-- The inner loop: the first start flag from `cur` on. -/
def findStart (buffer : Memory) (bufLen : ℕ) : ℕ → ℕ → Option ℕ
  | 0, _ => none
  | n + 1, cur =>
      if buffer cur = msgStart then some cur
      else if bufLen ≤ cur + 1 then none
      else findStart buffer bufLen n (cur + 1)

/-- What the outer loop carries from turn to turn. -/
structure Loop where
  /-- `cur`. -/
  cur : ℕ
  /-- `written`. -/
  bytes : ℕ
  /-- The writes so far. -/
  written : List (List BYTE)
  /-- One past the last byte looked at. -/
  reach : ℕ

/-- A turn has looked at the bytes before an offset. -/
def Loop.look (s : Loop) (i : ℕ) : Loop :=
  { s with reach := max s.reach i }

/-- The way out that leaves the bytes from `cur` on for the next call. -/
def Loop.carry (s : Loop) (buffer : Memory) (remain : ℕ) : Call where
  written := s.written
  buffer := buffer.moveFront s.cur remain
  ret := remain
  reach := max s.reach (s.cur + remain)

/-- The way out at the end of the block. -/
def Loop.finish (s : Loop) (buffer : Memory) (bufLen : ℕ) : Call :=
  let remain : ℤ := bufLen - s.bytes
  if 0 < remain then { s.carry buffer remain.toNat with ret := remain }
  else ⟨s.written, buffer, remain, s.reach⟩

/-- The outer loop, so many turns of it. Each `write` takes what it is
given. -/
def loop (buffer : Memory) (bufLen : ℕ) : ℕ → Loop → Call
  | 0, s => s.finish buffer bufLen
  | turns + 1, s =>
      if s.cur < bufLen then
        match findStart buffer bufLen (bufLen - s.cur) s.cur with
        | none => ⟨s.written, buffer, 0, max s.reach bufLen⟩
        | some cur =>
            let s := { s with cur := cur }
            let remain := bufLen - cur
            if remain < 3 then (s.look (cur + 1)).carry buffer remain
            else
              let n := msgLen (buffer (cur + 1)) (buffer (cur + 2))
              let s := s.look (cur + 3)
              if bufLen < cur + n + 1 then s.carry buffer remain
              else
                let s := s.look (cur + n + 2)
                if buffer (cur + n + 1) ≠ msgEnd then
                  loop buffer bufLen turns { s with cur := cur + n + 2 }
                else
                  loop buffer bufLen turns
                    { s with cur := cur + n + 2
                             bytes := s.bytes + (n + 2)
                             written := s.written ++ [buffer.slice cur (n + 2)] }
      else s.finish buffer bufLen

/-- `dmdWriteUsbToModem`. A turn that does not leave the loop takes two
bytes at least. -/
def dmdWriteUsbToModem (buffer : Memory) (bufLen : ℕ) : Call :=
  loop buffer bufLen bufLen ⟨0, 0, [], 0⟩

/-! ## The loop over the line -/

/-- The thread's state, and what it has done so far. -/
structure Monitor where
  /-- `buffer`. -/
  buffer : Memory
  /-- `index`. -/
  index : ℕ
  /-- The writes to the modem. -/
  modem : List (List BYTE)
  /-- How many bytes were read from the line. -/
  received : ℕ
  /-- What the last call returned. -/
  returned : ℤ
  /-- A call has looked at bytes behind those it was given. -/
  strayed : Bool

/-- One turn of `run_usb_monitor`, with the block `read` returned. Without
a byte it closes the line and opens it again. -/
def runUsbMonitor (s : Monitor) (block : List BYTE) : Monitor :=
  let n := s.index + block.length
  if n = 0 then s
  else
    let call := dmdWriteUsbToModem (s.buffer.store s.index block) n
    { buffer := call.buffer
      index := call.ret.toNat
      modem := s.modem ++ call.written
      received := s.received + block.length
      returned := call.ret
      strayed := s.strayed || decide (n < call.reach) }

/-- The thread before its first read. -/
def start (buffer : Memory) : Monitor :=
  ⟨buffer, 0, [], 0, 0, false⟩

/-! ## What the line carries -/

/-- **A frame** is known by its body. -/
structure Frame where
  body : List BYTE
  fits : body.length + 4 ≤ maxBuf - 1

namespace Frame

/-- The length in the frame, which counts itself and the body. -/
def msgLen (f : Frame) : ℕ := f.body.length + 2

/-- The frame on the line. -/
def bytes (f : Frame) : List BYTE :=
  [msgStart, BitVec.ofNat 8 f.msgLen, BitVec.ofNat 8 (f.msgLen / 256)] ++ f.body ++ [msgEnd]

end Frame

/-- The line carries frames, and bytes between them that start none. -/
inductive Item where
  | junk (b : BYTE) (h : b ≠ msgStart)
  | frame (f : Frame)

namespace Item

def bytes : Item → List BYTE
  | junk b _ => [b]
  | frame f => f.bytes

def isJunk : Item → Bool
  | junk _ _ => true
  | frame _ => false

/-- What the modem is to get of it. -/
def toModem : Item → List (List BYTE)
  | junk _ _ => []
  | frame f => [f.bytes]

end Item

/-- **The thread has done what it is for**: the modem has got the frames
that are complete, and no others; no call has looked behind the bytes it
was given; what the last one returned is the number of bytes of the
incomplete frame, which are at the buffer's start; and the next `read`
asks for a byte at least. -/
structure Correct (items : List Item) (s : Monitor) : Prop where
  modem : s.modem = (Cut.progress Item.bytes items s.received).done.flatMap Item.toModem
  strayed : s.strayed = false
  returned : s.returned = (Cut.progress Item.bytes items s.received).got
  index : s.index = (Cut.progress Item.bytes items s.received).got
  held : s.buffer.slice 0 s.index =
    ((Cut.progress Item.bytes items s.received).ahead.flatMap Item.bytes).take s.index
  room : s.index < maxBuf - 1

/-- A block that ends one byte before the end of a frame. -/
def OneShort (p : Cut.Progress Item) : Prop :=
  ∃ f rest, p.ahead = .frame f :: rest ∧ p.got + 1 = f.bytes.length

/-- A block that has bytes between frames, and ends where a frame ends. -/
def EndsFrame (p : Cut.Progress Item) : Prop :=
  p.got = 0 ∧ (∃ f, p.done.getLast? = some (.frame f)) ∧ ∃ i ∈ p.done, i.isJunk

/-- **A cut the code can bear**, of a block of so many bytes of these
items. -/
def GoodCut (ahead : List Item) (n : ℕ) : Prop :=
  ¬ OneShort (Cut.progress Item.bytes ahead n) ∧ ¬ EndsFrame (Cut.progress Item.bytes ahead n)

/-- All blocks of a run end at such cuts, by their lengths. -/
def GoodCuts (items : List Item) : ℕ → List ℕ → Prop
  | _, [] => True
  | received, k :: ks =>
      GoodCut (Cut.progress Item.bytes items received).ahead
        ((Cut.progress Item.bytes items received).got + k) ∧ GoodCuts items (received + k) ks

/-! ## The buffer -/

namespace Memory

variable (mem : Memory)

@[simp] theorem slice_zero (i : ℕ) : mem.slice i 0 = [] := rfl

theorem slice_succ (i n : ℕ) : mem.slice i (n + 1) = mem i :: mem.slice (i + 1) n := rfl

@[simp] theorem length_slice (i n : ℕ) : (mem.slice i n).length = n := by
  induction n generalizing i with
  | zero => rfl
  | succ n ih => rw [slice_succ, length_cons, ih]

theorem slice_add (i m n : ℕ) : mem.slice i (m + n) = mem.slice i m ++ mem.slice (i + m) n := by
  induction m generalizing i with
  | zero => simp
  | succ m ih =>
    rw [Nat.succ_add, slice_succ, slice_succ, ih, cons_append, Nat.add_right_comm i 1 m]
    rfl

theorem slice_congr {mem mem' : Memory} {i j n : ℕ}
    (h : ∀ k < n, mem (i + k) = mem' (j + k)) : mem.slice i n = mem'.slice j n := by
  induction n generalizing i j with
  | zero => rfl
  | succ n ih =>
    rw [slice_succ, slice_succ, ih]
    · rw [show mem i = mem' j from h 0 (Nat.zero_lt_succ n)]
    · intro k hk
      rw [Nat.add_right_comm i 1 k, Nat.add_right_comm j 1 k]
      exact h (k + 1) (by omega)

theorem getElem?_slice (i : ℕ) {n k : ℕ} (hk : k < n) :
    (mem.slice i n)[k]? = some (mem (i + k)) := by
  induction n generalizing i k with
  | zero => omega
  | succ n ih =>
    cases k with
    | zero => rfl
    | succ k =>
      rw [slice_succ, getElem?_cons_succ, ih (i + 1) (by omega), Nat.add_right_comm]
      rfl

theorem slice_split (xs : List BYTE) {ys : List BYTE} {i m : ℕ} (h : mem.slice i m = (xs ++ ys).take m)
    (hle : xs.length ≤ m) :
    mem.slice i xs.length = xs ∧
      mem.slice (i + xs.length) (m - xs.length) = ys.take (m - xs.length) := by
  obtain ⟨k, rfl⟩ : ∃ k, m = xs.length + k := ⟨m - xs.length, by omega⟩
  rw [slice_add, take_length_add_append] at h
  rw [Nat.add_sub_cancel_left]
  exact List.append_inj h (by rw [length_slice])

theorem slice_moveFront (src n : ℕ) : (mem.moveFront src n).slice 0 n = mem.slice src n := by
  refine slice_congr fun k hk => ?_
  unfold moveFront
  rw [Nat.zero_add, if_pos hk]

/-- What is read stands behind what was there. -/
theorem slice_store (i : ℕ) (block : List BYTE) :
    (mem.store i block).slice 0 (i + block.length) = mem.slice 0 i ++ block := by
  rw [slice_add]
  congr 1
  · refine slice_congr fun k hk => ?_
    unfold store
    rw [if_neg (by omega)]
  · refine ext_getElem? fun k => ?_
    rcases Nat.lt_or_ge k block.length with hk | hk
    · rw [getElem?_slice _ _ hk]
      unfold store
      rw [if_pos (by omega), show 0 + i + k - i = k by omega, getD_eq_getElem?_getD,
        getElem?_eq_getElem hk]
      rfl
    · rw [getElem?_eq_none (by rw [length_slice]; exact hk), getElem?_eq_none hk]

end Memory

/-! ## A frame in the buffer -/

theorem msgLen_ofNat {n : ℕ} (h : n < 65536) :
    msgLen (BitVec.ofNat 8 n) (BitVec.ofNat 8 (n / 256)) = n := by
  unfold msgLen
  rw [BitVec.toNat_ofNat, BitVec.toNat_ofNat, Nat.or_comm,
    ← Nat.shiftLeft_add_eq_or_of_lt (Nat.mod_lt _ (by decide)), Nat.shiftLeft_eq,
    show (0xFFFF : ℕ) = 2 ^ 16 - 1 by rfl, Nat.and_two_pow_sub_one_eq_mod]
  omega

@[simp] theorem Frame.length_bytes (f : Frame) : f.bytes.length = f.msgLen + 2 := by
  unfold Frame.bytes Frame.msgLen
  rw [length_append, length_append]
  simp only [length_cons, length_nil]
  omega

theorem Frame.msgLen_lt (f : Frame) : f.msgLen < 65536 := by
  have := f.fits
  unfold Frame.msgLen
  unfold maxBuf at this
  omega

theorem Frame.two_le_msgLen (f : Frame) : 2 ≤ f.msgLen := Nat.le_add_left 2 _

/-- What of a frame's bytes the code looks at. -/
theorem Frame.getElem?_bytes (f : Frame) :
    f.bytes[0]? = some msgStart ∧ f.bytes[1]? = some (BitVec.ofNat 8 f.msgLen) ∧
      f.bytes[2]? = some (BitVec.ofNat 8 (f.msgLen / 256)) ∧
      f.bytes[f.msgLen + 1]? = some msgEnd := by
  refine ⟨rfl, rfl, rfl, ?_⟩
  have hlen : f.msgLen + 1 = (msgStart :: BitVec.ofNat 8 f.msgLen ::
      BitVec.ofNat 8 (f.msgLen / 256) :: f.body).length := by
    simp [Frame.msgLen]
  unfold Frame.bytes
  rw [hlen]
  exact getElem?_concat_length

/-! ## The loop's turns -/

theorem Item.bytes_ne_nil (i : Item) : 0 < i.bytes.length := by
  cases i with
  | junk b h => exact Nat.zero_lt_one
  | frame f =>
    show 0 < f.bytes.length
    rw [f.length_bytes]
    omega

theorem progress_zero (items : List Item) : Cut.progress Item.bytes items 0 = ⟨[], items, 0⟩ := by
  cases items with
  | nil => rfl
  | cons i items => exact Cut.progress_cons_of_lt _ i.bytes_ne_nil

variable {buffer : Memory} {bufLen : ℕ}

theorem findStart_start {cur : ℕ} (h : buffer cur = msgStart) (hcur : cur < bufLen) :
    findStart buffer bufLen (bufLen - cur) cur = some cur := by
  obtain ⟨k, hk⟩ : ∃ k, bufLen - cur = k + 1 := ⟨bufLen - cur - 1, by omega⟩
  rw [hk, findStart, if_pos h]

theorem findStart_junk {cur : ℕ} (h : buffer cur ≠ msgStart) (hcur : cur < bufLen) :
    findStart buffer bufLen (bufLen - cur) cur =
      if bufLen ≤ cur + 1 then none
      else findStart buffer bufLen (bufLen - (cur + 1)) (cur + 1) := by
  obtain ⟨k, hk⟩ : ∃ k, bufLen - cur = k + 1 := ⟨bufLen - cur - 1, by omega⟩
  rw [hk, findStart, if_neg h, show bufLen - (cur + 1) = k by omega]

variable {s : Loop} {prior items : List Item}

theorem loop_lastJunk (turns : ℕ) (h : buffer s.cur ≠ msgStart) (hcur : s.cur + 1 = bufLen) :
    loop buffer bufLen (turns + 1) s = ⟨s.written, buffer, 0, max s.reach bufLen⟩ := by
  rw [loop, if_pos (by omega), findStart_junk h (by omega), if_pos (by omega)]

/-- **A byte that starts no frame is passed over**, and not counted. -/
theorem loop_junk (turns : ℕ) (h : buffer s.cur ≠ msgStart) (hcur : s.cur + 1 < bufLen) :
    loop buffer bufLen (turns + 1) s =
      loop buffer bufLen (turns + 1) { s with cur := s.cur + 1 } := by
  rw [loop, if_pos (by omega), findStart_junk h (by omega), if_neg (by omega), loop,
    if_pos (by exact hcur)]

/-- The loop looks at more and more. -/
theorem reach_le_loop (turns : ℕ) (s : Loop) : s.reach ≤ (loop buffer bufLen turns s).reach := by
  have hcarry (s : Loop) (remain : ℕ) : s.reach ≤ (s.carry buffer remain).reach :=
    Nat.le_max_left _ _
  have hfinish (s : Loop) : s.reach ≤ (s.finish buffer bufLen).reach := by
    unfold Loop.finish
    dsimp only
    split_ifs
    · exact hcarry s _
    · exact Nat.le_refl _
  have hlook (s : Loop) (i : ℕ) : s.reach ≤ (s.look i).reach := Nat.le_max_left _ _
  induction turns generalizing s with
  | zero => exact hfinish s
  | succ turns ih =>
    rw [loop]
    split_ifs with hcur
    · split
      · exact Nat.le_max_left _ _
      · next cur _ =>
        dsimp only
        have h1 := hlook { s with cur := cur } (cur + 3)
        split_ifs
        · exact Nat.le_trans (hlook { s with cur := cur } _) (hcarry _ _)
        · exact Nat.le_trans h1 (hcarry _ _)
        · refine Nat.le_trans ?_ (ih _)
          exact Nat.le_trans h1 (hlook _ _)
        · refine Nat.le_trans ?_ (ih _)
          exact Nat.le_trans h1 (hlook _ _)
    · exact hfinish s

/-- A frame begins at `cur`, and less than all of it is there: the rest is
waited for, if more than the end flag is missing. -/
theorem loop_partial (turns : ℕ) {f : Frame} {m : ℕ} (hm : 0 < m) (hcur : s.cur + m = bufLen)
    (hshort : m + 1 < f.bytes.length) (hbuf : ∀ k < m, some (buffer (s.cur + k)) = f.bytes[k]?)
    (hreach : s.reach ≤ bufLen) :
    ∃ reach ≤ bufLen, loop buffer bufLen (turns + 1) s =
      ⟨s.written, buffer.moveFront s.cur m, m, reach⟩ := by
  obtain ⟨h0, h1, h2, -⟩ := f.getElem?_bytes
  rw [← hbuf 0 hm, some.injEq, Nat.add_zero] at h0
  rw [loop, if_pos (by omega), findStart_start h0 (by omega)]
  dsimp only
  rw [show bufLen - s.cur = m by omega]
  rcases Nat.lt_or_ge m 3 with h3 | h3
  · rw [if_pos h3]
    refine ⟨_, ?_, rfl⟩
    exact Nat.max_le.mpr ⟨Nat.max_le.mpr ⟨hreach, by omega⟩, by show s.cur + m ≤ _; omega⟩
  · rw [← hbuf 1 (by omega), some.injEq] at h1
    rw [← hbuf 2 (by omega), some.injEq] at h2
    rw [f.length_bytes] at hshort
    rw [if_neg (by omega), h1, h2, msgLen_ofNat f.msgLen_lt, if_pos (by omega)]
    refine ⟨_, ?_, rfl⟩
    exact Nat.max_le.mpr ⟨Nat.max_le.mpr ⟨hreach, by omega⟩, by show s.cur + m ≤ _; omega⟩

/-- **All of a frame but the end flag is there**: the code looks behind the
block. -/
theorem loop_oneShort (turns : ℕ) {f : Frame} {m : ℕ} (hcur : s.cur + m = bufLen)
    (hshort : m + 1 = f.bytes.length) (hbuf : ∀ k < m, some (buffer (s.cur + k)) = f.bytes[k]?) :
    bufLen < (loop buffer bufLen (turns + 1) s).reach := by
  have h2le := f.two_le_msgLen
  rw [f.length_bytes] at hshort
  obtain ⟨h0, h1, h2, -⟩ := f.getElem?_bytes
  rw [← hbuf 0 (by omega), some.injEq, Nat.add_zero] at h0
  rw [← hbuf 1 (by omega), some.injEq] at h1
  rw [← hbuf 2 (by omega), some.injEq] at h2
  rw [loop, if_pos (by omega), findStart_start h0 (by omega)]
  dsimp only
  rw [if_neg (by omega), h1, h2, msgLen_ofNat f.msgLen_lt, if_neg (by omega)]
  have hbehind : bufLen < ((s.look (s.cur + 3)).look (s.cur + f.msgLen + 2)).reach :=
    Nat.lt_of_lt_of_le (by omega) (Nat.le_max_right _ _)
  -- whatever stands where the end flag is to stand
  split_ifs
  · refine Nat.lt_of_lt_of_le ?_ (reach_le_loop turns _)
    exact hbehind
  · refine Nat.lt_of_lt_of_le ?_ (reach_le_loop turns _)
    exact hbehind

/-- **A whole frame is there**: it is written. -/
theorem loop_frame (turns : ℕ) {f : Frame} (hlen : s.cur + f.bytes.length ≤ bufLen)
    (hbuf : buffer.slice s.cur f.bytes.length = f.bytes) (hreach : s.reach ≤ bufLen) :
    ∃ reach ≤ bufLen, loop buffer bufLen (turns + 1) s = loop buffer bufLen turns
      { cur := s.cur + f.bytes.length
        bytes := s.bytes + f.bytes.length
        written := s.written ++ [f.bytes]
        reach := reach } := by
  have h2le := f.two_le_msgLen
  have hget (k : ℕ) (hk : k < f.bytes.length) : some (buffer (s.cur + k)) = f.bytes[k]? := by
    rw [← Memory.getElem?_slice buffer s.cur hk, hbuf]
  rw [f.length_bytes] at hlen hget hbuf ⊢
  obtain ⟨h0, h1, h2, hend⟩ := f.getElem?_bytes
  rw [← hget 0 (by omega), some.injEq, Nat.add_zero] at h0
  rw [← hget 1 (by omega), some.injEq] at h1
  rw [← hget 2 (by omega), some.injEq] at h2
  rw [← hget (f.msgLen + 1) (by omega), some.injEq, ← Nat.add_assoc] at hend
  rw [loop, if_pos (by omega), findStart_start h0 (by omega)]
  dsimp only
  rw [if_neg (by omega), h1, h2, msgLen_ofNat f.msgLen_lt, if_neg (by omega), hend,
    if_neg (fun h => h rfl), hbuf]
  refine ⟨_, ?_, rfl⟩
  exact Nat.max_le.mpr ⟨Nat.max_le.mpr ⟨hreach, by omega⟩, by show s.cur + f.msgLen + 2 ≤ _; omega⟩

/-! ## One call on a stream -/

/-- How many bytes of these items start no frame. -/
def junkIn (items : List Item) : ℕ := items.countP Item.isJunk

/-- The call has done its part of a stream. -/
structure Serves (p : Cut.Progress Item) (bufLen : ℕ) (written : List (List BYTE)) (c : Call) :
    Prop where
  written : c.written = written ++ p.done.flatMap Item.toModem
  ret : c.ret = p.got
  held : c.buffer.slice 0 p.got = (p.ahead.flatMap Item.bytes).take p.got
  reach : c.reach ≤ bufLen

/-- At the block's end, no byte is left, if as many were written as were
consumed; otherwise bytes behind the block are taken for its rest. -/
theorem finish_spec (buffer : Memory) (items : List Item) (hcur : s.cur = bufLen)
    (hcount : s.bytes + junkIn prior = s.cur) (hreach : s.reach ≤ bufLen) :
    (junkIn prior = 0 → Serves ⟨[], items, 0⟩ bufLen s.written (s.finish buffer bufLen)) ∧
      (0 < junkIn prior → bufLen < (s.finish buffer bufLen).reach) := by
  unfold Loop.finish
  dsimp only
  constructor
  · intro h
    rw [if_neg (by omega)]
    refine ⟨(append_nil _).symm, ?_, rfl, hreach⟩
    show (bufLen : ℤ) - s.bytes = 0
    omega
  · intro h
    rw [if_pos (by omega)]
    refine Nat.lt_of_lt_of_le ?_ (Nat.le_max_right _ _)
    omega

/-- What a call is to do about these items, when it has consumed `prior`
already: a good block is served, and behind a bad one it looks. -/
structure Settles (prior : List Item) (p : Cut.Progress Item) (bufLen : ℕ)
    (written : List (List BYTE)) (c : Call) : Prop where
  good : ¬ OneShort ⟨prior ++ p.done, p.ahead, p.got⟩ →
    ¬ EndsFrame ⟨prior ++ p.done, p.ahead, p.got⟩ → Serves p bufLen written c
  bad : OneShort ⟨prior ++ p.done, p.ahead, p.got⟩ ∨
    EndsFrame ⟨prior ++ p.done, p.ahead, p.got⟩ → bufLen < c.reach

/-- An item consumed is the last one consumed so far. -/
theorem Settles.cons {i : Item} {p : Cut.Progress Item} {written : List (List BYTE)} {c : Call}
    (h : Settles (prior ++ [i]) p bufLen (written ++ i.toModem) c) :
    Settles prior ⟨i :: p.done, p.ahead, p.got⟩ bufLen written c := by
  have happ : prior ++ i :: p.done = prior ++ [i] ++ p.done := by
    rw [append_assoc, singleton_append]
  obtain ⟨hgood, hbad⟩ := h
  refine ⟨?_, ?_⟩
  · show ¬ OneShort ⟨prior ++ i :: p.done, _, _⟩ → ¬ EndsFrame ⟨prior ++ i :: p.done, _, _⟩ → _
    rw [happ]
    intro h1 h2
    obtain ⟨hw, hr, hheld, hreach⟩ := hgood h1 h2
    refine ⟨?_, hr, hheld, hreach⟩
    rw [hw, flatMap_cons, append_assoc]
  · show OneShort ⟨prior ++ i :: p.done, _, _⟩ ∨ EndsFrame ⟨prior ++ i :: p.done, _, _⟩ → _
    rw [happ]
    exact hbad

theorem not_oneShort_zero {done ahead : List Item} : ¬ OneShort ⟨done, ahead, 0⟩ := by
  rintro ⟨f, rest, -, hgot⟩
  rw [f.length_bytes] at hgot
  simp at hgot

/-- **At the end of the block** the loop is left. -/
theorem loop_end (turns : ℕ) (hcur : s.cur = bufLen) (hcount : s.bytes + junkIn prior = s.cur)
    (hreach : s.reach ≤ bufLen) (hprior : prior = [] ∨ ∃ f, prior.getLast? = some (.frame f)) :
    Settles prior ⟨[], items, 0⟩ bufLen s.written (loop buffer bufLen turns s) := by
  have hloop : loop buffer bufLen turns s = s.finish buffer bufLen := by
    cases turns with
    | zero => rfl
    | succ turns => rw [loop, if_neg (by omega)]
  obtain ⟨hgood, hbad⟩ := finish_spec buffer items hcur hcount hreach
  have hjunk : EndsFrame ⟨prior ++ [], items, 0⟩ ↔ 0 < junkIn prior := by
    unfold EndsFrame junkIn
    rw [countP_pos_iff]
    dsimp only
    rw [append_nil]
    constructor
    · rintro ⟨-, -, i, hi, hj⟩
      exact ⟨i, hi, hj⟩
    · rintro ⟨i, hi, hj⟩
      rcases hprior with rfl | hlast
      · exact absurd hi not_mem_nil
      · exact ⟨rfl, hlast, i, hi, hj⟩
  rw [hloop]
  refine ⟨?_, ?_⟩
  · intro _ h
    exact hgood (Nat.eq_zero_of_not_pos fun h' => h (hjunk.mpr h'))
  · rintro (h | h)
    · exact absurd h not_oneShort_zero
    · exact hbad (hjunk.mp h)

/-- **The loop on a stream**, by its items. So far it has consumed `prior`
in this call, and written all of it but the junk. -/
theorem loop_spec (prior : List Item) {turns m : ℕ} (hturns : m ≤ turns) (hcur : s.cur + m = bufLen)
    (hbuf : buffer.slice s.cur m = (items.flatMap Item.bytes).take m)
    (hcount : s.bytes + junkIn prior = s.cur) (hreach : s.reach ≤ bufLen)
    (hprior : m = 0 → prior = [] ∨ ∃ f, prior.getLast? = some (.frame f)) :
    Settles prior (Cut.progress Item.bytes items m) bufLen s.written
      (loop buffer bufLen turns s) := by
  induction items generalizing prior turns m s with
  | nil =>
    have hm : m = 0 := by
      have h := congrArg List.length hbuf
      simpa using h
    subst hm
    exact loop_end turns hcur hcount hreach (hprior rfl)
  | cons i items ih =>
    rcases Nat.eq_zero_or_pos m with rfl | hm
    · rw [progress_zero]
      exact loop_end turns hcur hcount hreach (hprior rfl)
    obtain ⟨turns, rfl⟩ : ∃ t, turns = t + 1 := ⟨turns - 1, by omega⟩
    have hget (k : ℕ) (hk : k < m) :
        some (buffer (s.cur + k)) = ((i :: items).flatMap Item.bytes)[k]? := by
      rw [← Memory.getElem?_slice buffer s.cur hk, hbuf, getElem?_take_of_lt hk]
    cases i with
    | junk b hb =>
      have hb0 : buffer s.cur = b := by
        have h := hget 0 hm
        simpa [Item.bytes] using h
      have hne : buffer s.cur ≠ msgStart := by
        rw [hb0]
        exact hb
      rw [Cut.progress_cons_of_le Item.bytes (i := .junk b hb) (by show 1 ≤ m; omega)]
      rcases Nat.lt_or_ge (s.cur + 1) bufLen with hlt | hge
      · -- the loop goes on at the next byte
        rw [loop_junk turns hne hlt]
        refine Settles.cons ?_
        rw [Item.toModem, append_nil]
        refine ih _ (s := { s with cur := s.cur + 1 }) (by show m - 1 ≤ _; omega)
          (by show s.cur + 1 + (m - 1) = _; omega) ?_ ?_ hreach ?_
        · exact (Memory.slice_split buffer [b] hbuf hm).2
        · show s.bytes + junkIn (prior ++ [.junk b hb]) = s.cur + 1
          unfold junkIn at hcount ⊢
          rw [countP_append]
          show s.bytes + (_ + 1) = _
          omega
        · intro h
          have hm1 : m - 1 = 0 := h
          omega
      · -- the block's last byte
        have hm1 : m = 1 := by omega
        subst hm1
        rw [loop_lastJunk turns hne (by omega)]
        show Settles prior ⟨_ :: (Cut.progress Item.bytes items 0).done,
          (Cut.progress Item.bytes items 0).ahead, (Cut.progress Item.bytes items 0).got⟩ _ _ _
        rw [progress_zero]
        refine ⟨?_, ?_⟩
        · intro _ _
          exact ⟨by simp [Item.toModem], rfl, rfl, Nat.max_le.mpr ⟨hreach, Nat.le_refl _⟩⟩
        · rintro (h | ⟨-, ⟨f, hf⟩, -⟩)
          · exact absurd h not_oneShort_zero
          · rw [getLast?_append] at hf
            simp at hf
    | frame f =>
      have h2le := f.two_le_msgLen
      rcases Nat.lt_or_ge m f.bytes.length with hlt | hge
      · -- some of the frame is missing
        rw [Cut.progress_cons_of_lt Item.bytes (i := .frame f) hlt]
        have hframe (k : ℕ) (hk : k < m) : some (buffer (s.cur + k)) = f.bytes[k]? := by
          rw [hget k hk, flatMap_cons, getElem?_append_left (by exact Nat.lt_trans hk hlt)]
          rfl
        rcases Nat.lt_or_ge (m + 1) f.bytes.length with hshort | hone
        · obtain ⟨reach, hr, hloop⟩ := loop_partial turns hm hcur hshort hframe hreach
          rw [hloop]
          refine ⟨fun _ _ => ⟨(append_nil _).symm, rfl, ?_, hr⟩, ?_⟩
          · show (buffer.moveFront s.cur m).slice 0 m = _
            rw [Memory.slice_moveFront, hbuf]
          · rintro (⟨f', rest, hf', hgot⟩ | ⟨hgot, -⟩)
            · cases hf'
              have hgot' : m + 1 = f.bytes.length := hgot
              omega
            · have hgot' : m = 0 := hgot
              omega
        · have hone' : m + 1 = f.bytes.length := by omega
          refine ⟨fun h => absurd ⟨f, items, rfl, hone'⟩ h, fun _ => ?_⟩
          exact loop_oneShort turns hcur hone' hframe
      · -- all of it is there
        rw [Cut.progress_cons_of_le Item.bytes (i := .frame f) hge]
        obtain ⟨hfront, hrest⟩ := Memory.slice_split buffer f.bytes hbuf hge
        obtain ⟨reach, hr, hloop⟩ := loop_frame turns (by omega) hfront hreach
        rw [hloop]
        refine Settles.cons ?_
        have hlen := f.length_bytes
        refine ih _ (s := ⟨s.cur + f.bytes.length, s.bytes + f.bytes.length, s.written ++ [f.bytes],
          reach⟩) (by show m - f.bytes.length ≤ _; omega)
          (by show s.cur + f.bytes.length + (m - f.bytes.length) = _; omega) hrest ?_ hr ?_
        · show s.bytes + f.bytes.length + junkIn (prior ++ [.frame f]) = s.cur + f.bytes.length
          unfold junkIn at hcount ⊢
          rw [countP_append]
          show s.bytes + f.bytes.length + (_ + 0) = _
          omega
        · intro _
          exact Or.inr ⟨f, getLast?_concat⟩

/-- **One call on a stream** of which so many bytes are in the buffer. -/
theorem call_spec {n : ℕ} (h : buffer.slice 0 n = (items.flatMap Item.bytes).take n) :
    (GoodCut items n →
        Serves (Cut.progress Item.bytes items n) n [] (dmdWriteUsbToModem buffer n)) ∧
      (¬ GoodCut items n → n < (dmdWriteUsbToModem buffer n).reach) := by
  obtain ⟨hgood, hbad⟩ := loop_spec [] (s := ⟨0, 0, [], 0⟩) (Nat.le_refl n)
    (Nat.zero_add n) h rfl (Nat.zero_le n) fun _ => Or.inl rfl
  constructor
  · rintro ⟨h1, h2⟩
    exact hgood h1 h2
  · intro h
    refine hbad ?_
    by_contra hn
    exact h ⟨fun h1 => hn (Or.inl h1), fun h2 => hn (Or.inr h2)⟩

/-! ## Runs -/

/-- Of a stream that is long enough, less than a buffer is left over. -/
theorem got_lt_maxBuf {m : ℕ} (h : m ≤ (items.flatMap Item.bytes).length) :
    (Cut.progress Item.bytes items m).got < maxBuf - 1 := by
  have hitems := Cut.done_append_ahead Item.bytes items m
  have hlen := Cut.length_done_add_got Item.bytes items m
  cases hahead : (Cut.progress Item.bytes items m).ahead with
  | nil =>
    rw [hahead, append_nil] at hitems
    rw [hitems] at hlen
    unfold maxBuf
    omega
  | cons i rest =>
    have hlt := Cut.got_lt Item.bytes hahead
    cases i with
    | junk b hb =>
      have hlt' : _ < 1 := hlt
      unfold maxBuf
      omega
    | frame f =>
      have hlt' : _ < f.bytes.length := hlt
      have hfits := f.fits
      rw [f.length_bytes, Frame.msgLen] at hlt'
      omega

/-- **A call does its part exactly when its block ends well.** -/
theorem Correct.step_iff {s : Monitor} (h : Correct items s)
    (hrec : s.received ≤ (items.flatMap Item.bytes).length) {block : List BYTE}
    (hblock : block <+: (items.flatMap Item.bytes).drop s.received) :
    Correct items (runUsbMonitor s block) ↔
      GoodCut (Cut.progress Item.bytes items s.received).ahead
        ((Cut.progress Item.bytes items s.received).got + block.length) := by
  obtain ⟨hmodem, hstrayed, hret, hindex, hheld, hroom⟩ := h
  have hadd := Cut.progress_add Item.bytes items s.received block.length
  have htotal : s.received + block.length ≤ (items.flatMap Item.bytes).length := by
    have := hblock.length_le
    rw [length_drop] at this
    omega
  have hdrop := Cut.drop_flatMap Item.bytes items s.received
  rw [hdrop] at hblock
  have hbuf : (s.buffer.store s.index block).slice 0 (s.index + block.length) =
      ((Cut.progress Item.bytes items s.received).ahead.flatMap Item.bytes).take
        (s.index + block.length) := by
    rw [Memory.slice_store, hheld, take_add, hindex]
    congr 1
    exact (prefix_iff_eq_take.mp hblock)
  dsimp only at hadd
  rw [← hindex] at hadd ⊢
  obtain ⟨hgood, hbad⟩ := call_spec hbuf
  unfold runUsbMonitor
  by_cases hn : s.index + block.length = 0
  · -- the line was closed
    dsimp only
    rw [if_pos hn, hn]
    constructor
    · intro _
      unfold GoodCut
      rw [progress_zero]
      refine ⟨not_oneShort_zero, ?_⟩
      rintro ⟨-, ⟨f, hf⟩, -⟩
      cases hf
    · intro _
      exact ⟨hmodem, hstrayed, hret, hindex, hheld, hroom⟩
  · dsimp only
    rw [if_neg hn]
    constructor
    · intro hc
      by_contra hg
      have hno := hc.strayed
      dsimp only at hno
      rw [hstrayed, Bool.false_or, decide_eq_false_iff_not] at hno
      exact hno (hbad hg)
    · intro hg
      obtain ⟨hw, hr, hh, hreach⟩ := hgood hg
      have hroom' := got_lt_maxBuf htotal
      rw [hadd] at hroom'
      constructor
      · show s.modem ++ _ = (Cut.progress Item.bytes items (s.received + block.length)).done.flatMap _
        rw [hadd, hw, hmodem, nil_append, flatMap_append]
      · dsimp only
        rw [hstrayed, Bool.false_or, decide_eq_false_iff_not]
        omega
      · show _ = ((Cut.progress Item.bytes items (s.received + block.length)).got : ℤ)
        rw [hadd]
        exact hr
      · show Int.toNat _ = (Cut.progress Item.bytes items (s.received + block.length)).got
        rw [hadd, hr]
        rfl
      · show Memory.slice _ 0 (Int.toNat _) =
          ((Cut.progress Item.bytes items (s.received + block.length)).ahead.flatMap _).take
            (Int.toNat _)
        rw [hadd, hr]
        exact hh
      · show Int.toNat _ < _
        rw [hr]
        exact hroom'

theorem received_runUsbMonitor (s : Monitor) (block : List BYTE) :
    (runUsbMonitor s block).received = s.received + block.length := by
  unfold runUsbMonitor
  dsimp only
  split_ifs with h
  · omega
  · rfl

open Run

/-- **A run does its part exactly when every block ends well.** -/
theorem Correct.always_iff {s : Monitor} (h : Correct items s)
    (hrec : s.received ≤ (items.flatMap Item.bytes).length) {blocks : List (List BYTE)}
    (hblocks : blocks.flatten <+: (items.flatMap Item.bytes).drop s.received) :
    Always runUsbMonitor (Correct items) s blocks ↔
      GoodCuts items s.received (blocks.map List.length) := by
  induction blocks generalizing s with
  | nil => exact ⟨fun _ => trivial, fun _ => h⟩
  | cons block blocks ih =>
    rw [flatten_cons] at hblocks
    have hblock := (prefix_append block blocks.flatten).trans hblocks
    have hstep := h.step_iff hrec hblock
    have hrec' : (runUsbMonitor s block).received ≤ (items.flatMap Item.bytes).length := by
      have := hblock.length_le
      rw [length_drop] at this
      rw [received_runUsbMonitor]
      omega
    have hblocks' : blocks.flatten <+:
        (items.flatMap Item.bytes).drop (runUsbMonitor s block).received := by
      obtain ⟨rest, hrest⟩ := hblocks
      refine ⟨rest, ?_⟩
      rw [received_runUsbMonitor, ← drop_drop, ← hrest, append_assoc, drop_left]
    have hreceived := received_runUsbMonitor s block
    constructor
    · rintro ⟨-, hrest⟩
      refine ⟨hstep.mp hrest.head, ?_⟩
      rw [← hreceived]
      exact (ih hrest.head hrec' hblocks').mp hrest
    · rintro ⟨hcut, hcuts⟩
      have h' := hstep.mpr hcut
      rw [← hreceived] at hcuts
      exact ⟨h, (ih h' hrec' hblocks').mpr hcuts⟩

end ExynosVendor.Dmd
