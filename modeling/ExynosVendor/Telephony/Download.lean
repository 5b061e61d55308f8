import Mathlib.Data.List.Basic
import Mathlib.Tactic.Linarith

/-!
# The modem's image is downloaded

`xmit_bin` of `cbd/modem_ss310.c` and `send_data` of `cbd/modem_common.c`,
the two loops that hand an image over piece by piece. The first sends what
its buffer holds after a short read, and the second fills in a record that
is not the one it sends.
-/

namespace ExynosVendor.Cbd

/-! ## What a download is for -/

/-- A piece of an image, as it is handed over. -/
structure Piece where
  offset : ℕ
  totalSize : ℕ
  bytes : List UInt8

/-- Some bytes of a file or a buffer. -/
def slice (content : ℕ → UInt8) (start n : ℕ) : List UInt8 :=
  (List.range n).map fun i => content (start + i)

@[simp] theorem slice_length (content : ℕ → UInt8) (start n : ℕ) :
    (slice content start n).length = n := by simp [slice]

/-- **The pieces are the image** from a position on: in order, every byte
once, and each piece with its place and the size of the image. -/
def Exact (image : ℕ → UInt8) (size : ℕ) : ℕ → List Piece → Prop
  | position, [] => position = size
  | position, piece :: pieces =>
    (piece.offset = position ∧ piece.totalSize = size ∧ piece.bytes ≠ [] ∧
      piece.bytes = slice image position piece.bytes.length) ∧
    Exact image size (position + piece.bytes.length) pieces

/-! ## The code -/

/-- The switches of the build. -/
structure Build where
  linkMainPcie : Bool
  disableFinalCmd : Bool

def Build.exynosPayloadLen (b : Build) : ℕ := if b.linkMainPcie then 7 * 1024 else 32 * 1024

def ENOMEM : ℤ := 12

def EFAULT : ℤ := 14

/-- What an entry of `args->ctrl` says of its image. -/
structure DownloadStageControl where
  stage : ℕ
  fd : ℕ
  offset : ℕ
  mOffset : ℕ
  size : ℕ
  mOffset_lt : mOffset < 2 ^ 32
  size_lt : size < 2 ^ 32

/-- What `get_resp` gets to see. -/
structure Resp where
  waitEvent : ℤ
  read : ℤ
  get : ℕ

/-- What the system answers: to `malloc` and `lseek` whether they go well,
and in each turn how much of a `read` there is, the result of the `ioctl` or
`write`, and the response. -/
structure Io where
  malloc : Bool
  lseek : Bool
  read : ℕ → Option ℕ
  put : ℕ → ℤ
  resp : ℕ → Resp

/-- The result of `lseek`, kept in an `int`. -/
def Io.seek (io : Io) (offset : ℕ) : ℤ :=
  if io.lseek then if offset < 2 ^ 31 then offset else offset - 2 ^ 32 else -1

/-- How much a `read` of `len` bytes gives. -/
def Io.count (io : Io) (turn len : ℕ) : ℕ := min ((io.read turn).getD 0) len

/-- A buffer that `n` bytes of a file were read into. -/
def load (content : ℕ → UInt8) (position n : ℕ) (p : ℕ → UInt8) : ℕ → UInt8 := fun i =>
  if i < n then content (position + i) else p i

/-- `u32` subtraction. -/
def sub32 (a b : ℕ) : ℕ := (a + 2 ^ 32 - b) % 2 ^ 32

theorem sub32_eq {a b : ℕ} (hb : b ≤ a) (ha : a < 2 ^ 32) : sub32 a b = a - b := by
  unfold sub32
  omega

/-! ### `xmit_bin` -/

structure DataInfo where
  stage : ℕ
  mOffset : ℕ
  totalSize : ℕ
  offset : ℕ
  len : ℕ

/-- What `modem_xmit_bin` hands to the driver: the record, and the bytes it
points to. -/
structure Chunk where
  binary : DataInfo
  bytes : List UInt8

def Chunk.piece (chunk : Chunk) : Piece :=
  ⟨chunk.binary.offset, chunk.binary.totalSize, chunk.bytes⟩

/-- The loop of `xmit_bin`. -/
def xmitTurns (payload : ℕ) (io : Io) (content : ℕ → UInt8) :
    ℕ → ℕ → DataInfo → (ℕ → UInt8) → ℕ → ℤ → Option (ℤ × List Chunk)
  | 0, _, _, _, _, _ => none
  | fuel + 1, turn, binary, p, position, ret =>
    if binary.totalSize = binary.offset then some (ret, [])
    else
      let rest := sub32 binary.totalSize binary.offset
      let binary := { binary with len := if rest < payload then rest else binary.len }
      if io.read turn = none then some (-1, [])
      else
        let p := load content position (io.count turn binary.len) p
        let chunk : Chunk := ⟨binary, slice p 0 binary.len⟩
        if io.put turn < 0 then some (io.put turn, [chunk])
        else if rest < payload then some (io.put turn, [chunk])
        else
          (xmitTurns payload io content fuel (turn + 1)
            { binary with
              offset := (binary.offset + payload) % 2 ^ 32
              mOffset := (binary.mOffset + binary.len) % 2 ^ 32 }
            p (position + io.count turn binary.len) (io.put turn)).map
            fun r => (r.1, chunk :: r.2)

/-- `xmit_bin`, for a file that is read at a position. -/
def xmitBin (b : Build) (ctrl : DownloadStageControl) (stage : ℕ) (io : Io)
    (content p : ℕ → UInt8) (position : ℕ) : Option (ℤ × List Chunk) :=
  if io.malloc = false then some (-ENOMEM, [])
  else if 0 < ctrl.offset ∧ io.seek ctrl.offset < 0 then some (io.seek ctrl.offset, [])
  else
    xmitTurns b.exynosPayloadLen io content (ctrl.size + 1) 0
      ⟨stage, ctrl.mOffset, ctrl.size, 0, b.exynosPayloadLen⟩ p
      (if 0 < ctrl.offset then ctrl.offset else position)
      (if 0 < ctrl.offset then io.seek ctrl.offset else 0)

/-! ### `send_data` -/

structure ExynosDataInfo where
  totalSize : ℕ
  dataOffset : ℕ

/-- A frame as `write` gets it. -/
structure ExynosPayload where
  cmd : ℕ
  length : ℕ
  dataInfo : ExynosDataInfo
  pdata : List UInt8

def ExynosPayload.piece (frame : ExynosPayload) : Piece :=
  ⟨frame.dataInfo.dataOffset, frame.dataInfo.totalSize, frame.pdata⟩

def MSG (dir cmd index stat : ℕ) : ℕ :=
  (dir <<< 12 ||| cmd <<< 8 ||| index <<< 4 ||| stat) % 2 ^ 32

def MSG_AP2CP : ℕ := 0xA

def MSG_CP2AP : ℕ := 0xC

def MSG_DOWNLOAD : ℕ := 0x1

def MSG_DATA : ℕ := 0xB

def EXYNOS_MSG_INFO_SIZE : ℕ := 12

def getResp (b : Build) (exp : ℕ) (resp : Resp) : ℤ :=
  if b.disableFinalCmd then 0
  else if resp.waitEvent < 0 then resp.waitEvent
  else if resp.read < 0 then resp.read
  else if exp ≠ resp.get then -EFAULT
  else resp.read

/-- `readn_tx_frame`: its result, how much was read, and the frame it
writes. -/
def readnTxFrame (io : Io) (content : ℕ → UInt8) (position turn : ℕ) (exynos : ExynosPayload)
    (len : ℕ) : ℤ × ℕ × List ExynosPayload :=
  if io.read turn = none then (-1, 0, [])
  else
    let n := io.count turn len
    if n ≠ len then (-EFAULT, n, [])
    else
      let frame := { exynos with
        length := (len + 8) % 2 ^ 16
        pdata := slice (load content position n fun _ => 0) 0 len }
      (if io.put turn < 0 then io.put turn
        else if io.put turn ≠ len + EXYNOS_MSG_INFO_SIZE then -EFAULT else 0, n, [frame])

/-- The loop of `send_data`. -/
def sendTurns (b : Build) (ctrl : DownloadStageControl) (io : Io) (content : ℕ → UInt8) :
    ℕ → ℕ → ExynosPayload → ExynosDataInfo → ℕ → ℕ → Option (ℤ × List ExynosPayload)
  | 0, _, _, _, _, _ => none
  | fuel + 1, turn, exynosData, info, len, position =>
    if info.totalSize = info.dataOffset then some (0, [])
    else
      let rest := sub32 info.totalSize info.dataOffset
      let len := if rest < b.exynosPayloadLen then rest else len
      let exynosData := { exynosData with
        cmd := MSG MSG_AP2CP MSG_DOWNLOAD ctrl.stage MSG_DATA % 2 ^ 16 }
      let sent := readnTxFrame io content position turn exynosData len
      let exp := MSG MSG_CP2AP MSG_DOWNLOAD ctrl.stage MSG_DATA
      if exp ≠ 0 ∧ getResp b exp (io.resp turn) < 0 then
        some (getResp b exp (io.resp turn), sent.2.2)
      else if rest < b.exynosPayloadLen then some (0, sent.2.2)
      else
        (sendTurns b ctrl io content fuel (turn + 1) exynosData
          { info with dataOffset := (info.dataOffset + len) % 2 ^ 32 } len
          (position + sent.2.1)).map fun r => (r.1, sent.2.2 ++ r.2)

/-- `send_data`. The seek is in `fds.fd_bin`, the reads are from
`ctrl->fd`. -/
def sendData (b : Build) (ctrl : DownloadStageControl) (fdBin : ℕ) (io : Io)
    (content : ℕ → UInt8) (position : ℕ) : Option (ℤ × List ExynosPayload) :=
  if io.seek ctrl.offset < 0 then some (io.seek ctrl.offset, [])
  else
    sendTurns b ctrl io content (ctrl.size + 1) 0 ⟨0, 0, ⟨0, 0⟩, []⟩ ⟨ctrl.size, 0⟩
      (if ctrl.size < b.exynosPayloadLen then ctrl.size else b.exynosPayloadLen)
      (if ctrl.fd = fdBin then ctrl.offset else position)

/-! ## What is claimed -/

/-- **A download by `xmit_bin` is exact**: whatever the file and the buffer
hold, it returns, and a success has handed the image over. -/
def XmitExact (b : Build) (ctrl : DownloadStageControl) (stage : ℕ) (io : Io) (position : ℕ) :
    Prop :=
  ∀ content p, ∃ ret chunks, xmitBin b ctrl stage io content p position = some (ret, chunks) ∧
    (0 ≤ ret → Exact (fun i => content (ctrl.offset + i)) ctrl.size 0 (chunks.map Chunk.piece) ∧
      ∀ chunk ∈ chunks,
        chunk.binary.mOffset = (ctrl.mOffset + chunk.binary.offset) % 2 ^ 32)

/-- **And one by `send_data`.** -/
def SendExact (b : Build) (ctrl : DownloadStageControl) (fdBin : ℕ) (io : Io) (position : ℕ) :
    Prop :=
  ∀ content, ∃ ret frames, sendData b ctrl fdBin io content position = some (ret, frames) ∧
    (0 ≤ ret →
      Exact (fun i => content (ctrl.offset + i)) ctrl.size 0 (frames.map ExynosPayload.piece))

/-- How many bytes a turn is to hand over. -/
def chunkLen (payload size turn : ℕ) : ℕ := min payload (size - turn * payload)

/-- Neither the read nor the driver fails. -/
def Io.Passes (io : Io) (turn : ℕ) : Prop := io.read turn ≠ none ∧ 0 ≤ io.put turn

/-- **When `xmit_bin` is exact**: there is nothing to download, or something
fails that it looks at, or the file is read from the image's first byte on
and no read is short. -/
def XmitRight (b : Build) (ctrl : DownloadStageControl) (io : Io) (position : ℕ) : Prop :=
  ctrl.size = 0 ∨
    (io.malloc = false ∨ 0 < ctrl.offset ∧ io.seek ctrl.offset < 0 ∨
      ∃ turn, turn * b.exynosPayloadLen < ctrl.size ∧ ¬ io.Passes turn) ∨
    ((0 < ctrl.offset ∨ position = 0) ∧
      ∀ turn, turn * b.exynosPayloadLen < ctrl.size →
        io.count turn (chunkLen b.exynosPayloadLen ctrl.size turn) =
          chunkLen b.exynosPayloadLen ctrl.size turn)

/-- **When `send_data` is**: there is nothing to send, or it fails. -/
def SendRight (b : Build) (ctrl : DownloadStageControl) (io : Io) : Prop :=
  ctrl.size = 0 ∨ io.seek ctrl.offset < 0 ∨ ∃ turn, turn * b.exynosPayloadLen < ctrl.size ∧
    getResp b (MSG MSG_CP2AP MSG_DOWNLOAD ctrl.stage MSG_DATA) (io.resp turn) < 0

/-! ## The turns -/

theorem Build.exynosPayloadLen_pos (b : Build) : 0 < b.exynosPayloadLen := by
  unfold exynosPayloadLen
  split <;> decide

theorem map_eq_slice {f image : ℕ → UInt8} {start n : ℕ} :
    slice f 0 n = slice image start n ↔ ∀ i < n, f i = image (start + i) := by
  simp [slice]

section Turns

variable {payload size k j : ℕ} {io : Io} {content p : ℕ → UInt8} {start : ℕ}

/-- A turn that has all of a payload, -/
theorem chunkLen_full (h : (k + 1) * payload ≤ size) : chunkLen payload size k = payload := by
  rw [Nat.succ_mul] at h
  unfold chunkLen
  omega

/-- and the last one. -/
theorem chunkLen_last (h : size < (k + 1) * payload) :
    chunkLen payload size k = size - k * payload := by
  rw [Nat.succ_mul] at h
  unfold chunkLen
  omega

theorem chunkLen_pos (hpay : 0 < payload) (h : k * payload < size) :
    0 < chunkLen payload size k := by
  unfold chunkLen
  omega

theorem ite_chunkLen : (if size - k * payload < payload then size - k * payload else payload) =
    chunkLen payload size k := by
  unfold chunkLen
  split
  · rw [min_eq_right (by omega)]
  · rw [min_eq_left (by omega)]

/-- Nothing is left to do behind the end, -/
theorem turns_done {Q : ℕ → Prop} (h : size ≤ k * payload) :
    ∀ j, k ≤ j → j * payload < size → Q j := by
  intro j hj hlt
  have hmul : k * payload ≤ j * payload := Nat.mul_le_mul_right payload hj
  omega

/-- and else a turn, and what is left behind it. -/
theorem turns_next {Q : ℕ → Prop} (h : k * payload < size) :
    (∀ j, k ≤ j → j * payload < size → Q j) ↔
      Q k ∧ ∀ j, k + 1 ≤ j → j * payload < size → Q j := by
  constructor
  · exact fun hall => ⟨hall k le_rfl h, fun j hj => hall j (by omega)⟩
  · rintro ⟨hk, hall⟩ j hj hlt
    rcases eq_or_lt_of_le hj with rfl | hnext
    · exact hk
    · exact hall j hnext hlt

/-- Where the file is read in a turn, -/
def readPosition (payload size : ℕ) (io : Io) (start : ℕ) : ℕ → ℕ
  | 0 => start
  | k + 1 => readPosition payload size io start k + io.count k (chunkLen payload size k)

/-- and what the buffer holds before it. -/
def loaded (payload size : ℕ) (io : Io) (content p : ℕ → UInt8) (start : ℕ) : ℕ → ℕ → UInt8
  | 0 => p
  | k + 1 => load content (readPosition payload size io start k)
      (io.count k (chunkLen payload size k)) (loaded payload size io content p start k)

theorem next_offset (hsize : size < 2 ^ 32) (h : ¬ size - k * payload < payload)
    (hlt : k * payload < size) :
    (k + 1) * payload ≤ size ∧ (k * payload + payload) % 2 ^ 32 = (k + 1) * payload := by
  rw [Nat.succ_mul]
  exact ⟨by omega, Nat.mod_eq_of_lt (by omega)⟩

/-- **The loop of `xmit_bin`**: it succeeds if nothing fails, and is exact if
the buffer then holds the right bytes in every turn. -/
theorem xmitTurns_spec (io : Io) (content p image : ℕ → UInt8) (start stage m : ℕ) {fuel : ℕ}
    {ret : ℤ} (hpay : 0 < payload) (hsize : size < 2 ^ 32) (hk : k * payload ≤ size)
    (hfuel : size < (k + fuel) * payload) (hret : 0 ≤ ret) : ∃ ret' chunks,
      xmitTurns payload io content fuel k
          ⟨stage, (m + k * payload) % 2 ^ 32, size, k * payload, payload⟩
          (loaded payload size io content p start k) (readPosition payload size io start k) ret =
        some (ret', chunks) ∧
      (0 ≤ ret' ↔ ∀ j, k ≤ j → j * payload < size → io.Passes j) ∧
      (0 ≤ ret' → (Exact image size (k * payload) (chunks.map Chunk.piece) ↔
        ∀ j, k ≤ j → j * payload < size → ∀ i < chunkLen payload size j,
          loaded payload size io content p start (j + 1) i = image (j * payload + i))) ∧
      ∀ chunk ∈ chunks, chunk.binary.mOffset = (m + chunk.binary.offset) % 2 ^ 32 := by
  induction fuel generalizing k ret with
  | zero => exact absurd hfuel (by simpa using hk)
  | succ fuel ih =>
    rw [xmitTurns]
    by_cases hdone : size = k * payload
    · exact ⟨ret, [], if_pos hdone, ⟨fun _ => turns_done hdone.le, fun _ => hret⟩,
        fun _ => ⟨fun _ => turns_done hdone.le, fun _ => hdone.symm⟩, nofun⟩
    have hlt : k * payload < size := by omega
    have hpos := chunkLen_pos hpay hlt
    -- what a turn hands over is what is in the buffer
    have hpiece : ∀ {pieces : List Piece}, Exact image size (k * payload)
        (⟨k * payload, size, slice (loaded payload size io content p start (k + 1)) 0
          (chunkLen payload size k)⟩ :: pieces) ↔
        (∀ i < chunkLen payload size k,
          loaded payload size io content p start (k + 1) i = image (k * payload + i)) ∧
        Exact image size (k * payload + chunkLen payload size k) pieces := by
      intro pieces
      have hne : slice (loaded payload size io content p start (k + 1)) 0
          (chunkLen payload size k) ≠ [] := by
        rw [← List.length_pos_iff, slice_length]
        exact hpos
      rw [Exact, slice_length, map_eq_slice]
      simp [hne]
    dsimp only
    rw [if_neg hdone, sub32_eq hk hsize, ite_chunkLen, turns_next hlt, turns_next hlt]
    by_cases hread : io.read k = none
    · exact ⟨-1, [], if_pos hread, ⟨fun h => absurd h (by decide), fun h => absurd hread h.1.1⟩,
        fun h => absurd h (by decide), nofun⟩
    rw [if_neg hread]
    by_cases hput : io.put k < 0
    · exact ⟨_, _, if_pos hput, ⟨fun h => absurd h (by omega), fun h => h.1.2⟩,
        fun h => absurd h (by omega), by simp⟩
    have hpass : io.Passes k := ⟨hread, by omega⟩
    rw [if_neg hput]
    by_cases hlast : size - k * payload < payload
    · have hend : size < (k + 1) * payload := by
        rw [Nat.succ_mul]
        omega
      refine ⟨_, _, if_pos hlast, ⟨fun _ => ⟨hpass, turns_done hend.le⟩, fun _ => hpass.2⟩,
        fun _ => hpiece.trans (and_congr_right fun _ => ?_), by simp⟩
      refine ⟨fun _ => turns_done hend.le, fun _ => ?_⟩
      rw [chunkLen_last hend]
      show k * payload + (size - k * payload) = size
      omega
    · obtain ⟨hnext, hmod⟩ := next_offset hsize hlast hlt
      have hlen := chunkLen_full hnext
      obtain ⟨ret', chunks, hturns, hok, hexact, hoffset⟩ := ih hnext
        (by rwa [Nat.add_right_comm, Nat.add_assoc]) hpass.2
      have hmod' : ((m + k * payload) % 2 ^ 32 + chunkLen payload size k) % 2 ^ 32 =
          (m + (k + 1) * payload) % 2 ^ 32 := by
        rw [hlen, Nat.mod_add_mod, Nat.succ_mul, Nat.add_assoc]
      have hinfo : (⟨stage, (m + (k + 1) * payload) % 2 ^ 32, size, (k + 1) * payload,
          chunkLen payload size k⟩ : DataInfo) =
          ⟨stage, (m + (k + 1) * payload) % 2 ^ 32, size, (k + 1) * payload, payload⟩ := by
        rw [hlen]
      rw [readPosition, loaded] at hturns
      rw [if_neg hlast, hmod, hmod', hinfo, hturns]
      refine ⟨ret', _, rfl, hok.trans (and_iff_right hpass).symm, fun hr => ?_, ?_⟩
      · refine hpiece.trans (and_congr_right fun _ => ?_)
        rw [hlen, ← Nat.succ_mul]
        exact hexact hr
      · rintro chunk (_ | ⟨_, hchunk⟩)
        · rfl
        · exact hoffset chunk hchunk

/-! ## What the buffer holds -/

theorem count_le {len : ℕ} : io.count k len ≤ len := min_le_right _ _

theorem readPosition_le : readPosition payload size io start k ≤ start + k * payload := by
  induction k with
  | zero => simp [readPosition]
  | succ k ih =>
    have hcount : io.count k (chunkLen payload size k) ≤ payload := count_le.trans (min_le_left _ _)
    rw [readPosition, Nat.succ_mul]
    omega

theorem readPosition_of_full (hfull : ∀ j, j * payload < size →
      io.count j (chunkLen payload size j) = chunkLen payload size j) (h : k * payload < size) :
    readPosition payload size io start k = start + k * payload := by
  induction k with
  | zero => simp [readPosition]
  | succ k ih =>
    have hlen := chunkLen_full h.le
    rw [Nat.succ_mul] at h ⊢
    rw [readPosition, ih (by omega), hfull k (by omega), hlen, Nat.add_assoc]

/-- A file of zeros with a one. -/
def marker (x : ℕ) : ℕ → UInt8 := fun i => if i = x then 1 else 0

/-- **The one is in the buffer** only where it was read. -/
theorem loaded_marker {x i : ℕ} (h : loaded payload size io (marker x) (fun _ => 0) start k i = 1) :
    ∃ l < k, i < io.count l (chunkLen payload size l) ∧ readPosition payload size io start l + i = x := by
  induction k with
  | zero => exact absurd h (by simp [loaded])
  | succ k ih =>
    rw [loaded, load] at h
    split at h
    · next hlt =>
      refine ⟨k, Nat.lt_succ_self k, hlt, ?_⟩
      by_contra hne
      exact absurd h (by simp [marker, hne])
    · obtain ⟨l, hl, hread⟩ := ih h
      exact ⟨l, by omega, hread⟩

/-- **The buffer holds the image** of every file only if the reads begin at
its first byte and none is short. -/
theorem loaded_iff {base : ℕ} (hpay : 0 < payload) (hsize : 0 < size) :
    (∀ content p j, j * payload < size → ∀ i < chunkLen payload size j,
      loaded payload size io content p start (j + 1) i = content (base + (j * payload + i))) ↔
    start = base ∧ ∀ j, j * payload < size →
      io.count j (chunkLen payload size j) = chunkLen payload size j := by
  constructor
  · intro h
    have hseen : ∀ j i, j * payload < size → i < chunkLen payload size j →
        ∃ l < j + 1, i < io.count l (chunkLen payload size l) ∧
          readPosition payload size io start l + i = base + (j * payload + i) := by
      intro j i hj hi
      refine loaded_marker ?_
      rw [h _ _ j hj i hi]
      exact if_pos rfl
    have hstart : start = base := by
      obtain ⟨l, hl, -, hread⟩ := hseen 0 0 (by simpa using hsize)
        (chunkLen_pos hpay (by simpa using hsize))
      obtain rfl : l = 0 := by omega
      simpa [readPosition] using hread
    refine ⟨hstart, fun j hj => ?_⟩
    -- the last byte of a turn was read in that turn: no turn before is that far
    have hpos := chunkLen_pos hpay hj
    obtain ⟨l, hl, hlt, hread⟩ := hseen j (chunkLen payload size j - 1) hj (by omega)
    have hle : readPosition payload size io start l ≤ start + l * payload := readPosition_le
    have hmul : j * payload ≤ l * payload := by omega
    obtain rfl : l = j := le_antisymm (by omega) (Nat.le_of_mul_le_mul_right hmul hpay)
    have hcount : io.count l (chunkLen payload size l) ≤ chunkLen payload size l := count_le
    omega
  · rintro ⟨rfl, hfull⟩ content p j hj i hi
    rw [loaded, load, hfull j hj, if_pos hi, readPosition_of_full hfull hj, Nat.add_assoc]

end Turns

/-! ## `send_data` -/

theorem MSG_ne_zero (stage : ℕ) : MSG MSG_CP2AP MSG_DOWNLOAD stage MSG_DATA ≠ 0 := by
  intro h
  have hbit : (MSG MSG_CP2AP MSG_DOWNLOAD stage MSG_DATA).testBit 0 = true := by
    simp [MSG, MSG_CP2AP, MSG_DOWNLOAD, MSG_DATA]
  rw [h, Nat.zero_testBit] at hbit
  exact Bool.false_ne_true hbit

variable {io : Io} {position : ℕ} {ctrl : DownloadStageControl}

variable {content : ℕ → UInt8}

theorem readnTxFrame_dataInfo {turn len : ℕ} {exynos : ExynosPayload} :
    ∀ frame ∈ (readnTxFrame io content position turn exynos len).2.2,
      frame.dataInfo = exynos.dataInfo := by
  intro frame hframe
  unfold readnTxFrame at hframe
  split at hframe
  · exact absurd hframe List.not_mem_nil
  · dsimp only at hframe
    split at hframe
    · exact absurd hframe List.not_mem_nil
    · rw [List.mem_singleton.mp hframe]

/-- **The loop of `send_data`** fails only for a response, and no frame says
what it is of. -/
theorem sendTurns_spec {b : Build} {fuel k len : ℕ} (exynosData : ExynosPayload) (position : ℕ)
    (hk : k * b.exynosPayloadLen ≤ ctrl.size)
    (hlen : (k + 1) * b.exynosPayloadLen ≤ ctrl.size → len = b.exynosPayloadLen)
    (hdata : exynosData.dataInfo = ⟨0, 0⟩) (hfuel : ctrl.size < (k + fuel) * b.exynosPayloadLen) :
    ∃ ret frames, sendTurns b ctrl io content fuel k exynosData
        ⟨ctrl.size, k * b.exynosPayloadLen⟩ len position = some (ret, frames) ∧
      (0 ≤ ret ↔ ∀ j, k ≤ j → j * b.exynosPayloadLen < ctrl.size →
        0 ≤ getResp b (MSG MSG_CP2AP MSG_DOWNLOAD ctrl.stage MSG_DATA) (io.resp j)) ∧
      ∀ frame ∈ frames, frame.dataInfo = ⟨0, 0⟩ := by
  induction fuel generalizing k len position exynosData with
  | zero => exact absurd hfuel (by simpa using hk)
  | succ fuel ih =>
    rw [sendTurns]
    by_cases hdone : ctrl.size = k * b.exynosPayloadLen
    · exact ⟨0, [], if_pos hdone, ⟨fun _ => turns_done hdone.le, fun _ => le_rfl⟩, nofun⟩
    have hlt : k * b.exynosPayloadLen < ctrl.size := by omega
    dsimp only
    rw [if_neg hdone, sub32_eq hk ctrl.size_lt, turns_next hlt]
    generalize hd : ({ exynosData with
      cmd := MSG MSG_AP2CP MSG_DOWNLOAD ctrl.stage MSG_DATA % 2 ^ 16 } : ExynosPayload) = d
    have hzero : d.dataInfo = ⟨0, 0⟩ := by rw [← hd, hdata]
    have hsent : ∀ {n : ℕ}, ∀ frame ∈ (readnTxFrame io content position k d n).2.2,
        frame.dataInfo = ⟨0, 0⟩ := fun frame hframe =>
      (readnTxFrame_dataInfo frame hframe).trans hzero
    by_cases hresp : getResp b (MSG MSG_CP2AP MSG_DOWNLOAD ctrl.stage MSG_DATA) (io.resp k) < 0
    · exact ⟨_, _, if_pos ⟨MSG_ne_zero _, hresp⟩,
        ⟨fun h => absurd h (by omega), fun h => h.1⟩, hsent⟩
    have hpass := not_lt.mp hresp
    rw [if_neg fun h => hresp h.2]
    by_cases hlast : ctrl.size - k * b.exynosPayloadLen < b.exynosPayloadLen
    · have hend : ctrl.size ≤ (k + 1) * b.exynosPayloadLen := by
        rw [Nat.succ_mul]
        omega
      exact ⟨0, _, if_pos hlast, ⟨fun _ => ⟨hpass, turns_done hend⟩, fun _ => le_rfl⟩, hsent⟩
    · obtain ⟨hnext, hmod⟩ := next_offset ctrl.size_lt hlast hlt
      rw [if_neg hlast, if_neg hlast, hlen hnext, hmod]
      obtain ⟨ret, frames, hturns, hok, hframes⟩ := ih d
        (position + (readnTxFrame io content position k d b.exynosPayloadLen).2.1) hnext
        (fun _ => rfl) hzero (by rwa [Nat.add_right_comm, Nat.add_assoc])
      rw [hturns]
      refine ⟨ret, _, rfl, hok.trans (and_iff_right hpass).symm, fun frame hframe => ?_⟩
      rcases List.mem_append.mp hframe with hframe | hframe
      · exact hsent frame hframe
      · exact hframes frame hframe

/-! ## The downloads -/

theorem fuel_enough (b : Build) (size : ℕ) :
    size < (0 + (size + 1)) * b.exynosPayloadLen := by
  have hmul : (0 + (size + 1)) * 1 ≤ (0 + (size + 1)) * b.exynosPayloadLen :=
    Nat.mul_le_mul_left _ b.exynosPayloadLen_pos
  omega

/-- **`xmit_bin` is exact when it is right**, and only then, -/
theorem xmitExact_iff {b : Build} {stage : ℕ} :
    XmitExact b ctrl stage io position ↔ XmitRight b ctrl io position := by
  have hpay := b.exynosPayloadLen_pos
  unfold XmitExact XmitRight
  by_cases hmalloc : io.malloc = false
  · refine ⟨fun _ => .inr (.inl (.inl hmalloc)), fun _ content p => ⟨-ENOMEM, [], ?_, nofun⟩⟩
    rw [xmitBin, if_pos hmalloc]
  by_cases hseek : 0 < ctrl.offset ∧ io.seek ctrl.offset < 0
  · refine ⟨fun _ => .inr (.inl (.inr (.inl hseek))), fun _ content p =>
      ⟨io.seek ctrl.offset, [], ?_, fun h => absurd h (by omega)⟩⟩
    rw [xmitBin, if_neg hmalloc, if_pos hseek]
  obtain ⟨start, hstart⟩ : ∃ start, start = if 0 < ctrl.offset then ctrl.offset else position :=
    ⟨_, rfl⟩
  have hbase : start = ctrl.offset ↔ 0 < ctrl.offset ∨ position = 0 := by
    rw [hstart]
    split <;> omega
  have hret : 0 ≤ if 0 < ctrl.offset then io.seek ctrl.offset else 0 := by
    split <;> omega
  have hspec := fun content p => xmitTurns_spec io content p
    (fun i => content (ctrl.offset + i)) start stage ctrl.mOffset (k := 0) hpay ctrl.size_lt
    (by simp) (fuel_enough b ctrl.size) hret
  simp only [Nat.zero_mul, Nat.add_zero, Nat.mod_eq_of_lt ctrl.mOffset_lt, Nat.zero_le,
    forall_true_left, readPosition, loaded] at hspec
  have hbin : ∀ content p, xmitBin b ctrl stage io content p position =
      xmitTurns b.exynosPayloadLen io content (ctrl.size + 1) 0
        ⟨stage, ctrl.mOffset, ctrl.size, 0, b.exynosPayloadLen⟩ p start
        (if 0 < ctrl.offset then io.seek ctrl.offset else 0) := by
    intro content p
    rw [xmitBin, if_neg hmalloc, if_neg hseek, hstart]
  simp only [hbin]
  constructor
  · intro h
    by_cases hsize : ctrl.size = 0
    · exact .inl hsize
    by_cases hpass : ∃ j, j * b.exynosPayloadLen < ctrl.size ∧ ¬ io.Passes j
    · exact .inr (.inl (.inr (.inr hpass)))
    refine .inr (.inr ?_)
    rw [← hbase]
    refine (loaded_iff hpay (by omega)).mp fun content p => ?_
    obtain ⟨ret, chunks, hrun, hexact⟩ := h content p
    obtain ⟨ret', chunks', hrun', hok, hloaded, -⟩ := hspec content p
    obtain ⟨rfl, rfl⟩ := Prod.mk.inj (Option.some.inj (hrun.symm.trans hrun'))
    have hr : 0 ≤ ret := hok.mpr fun j hj => by_contra fun hno => hpass ⟨j, hj, hno⟩
    exact (hloaded hr).mp (hexact hr).1
  · intro h content p
    obtain ⟨ret, chunks, hrun, hok, hloaded, hoffset⟩ := hspec content p
    refine ⟨ret, chunks, hrun, fun hr => ⟨(hloaded hr).mpr ?_, hoffset⟩⟩
    rcases h with hsize | hfail | ⟨hbegin, hfull⟩
    · exact fun j hj => absurd hj (by omega)
    · rcases hfail with hm | hs | ⟨j, hj, hno⟩
      · exact absurd hm hmalloc
      · exact absurd hs hseek
      · exact absurd (hok.mp hr j hj) hno
    · exact fun j hj i hi =>
        (loaded_iff hpay (by omega)).mpr ⟨hbase.mpr hbegin, hfull⟩ content p j hj i hi

/-- **and so is `send_data`.** -/
theorem sendExact_iff {b : Build} {fdBin : ℕ} :
    SendExact b ctrl fdBin io position ↔ SendRight b ctrl io := by
  unfold SendExact SendRight
  by_cases hseek : io.seek ctrl.offset < 0
  · refine ⟨fun _ => .inr (.inl hseek), fun _ content =>
      ⟨io.seek ctrl.offset, [], ?_, fun h => absurd h (by omega)⟩⟩
    rw [sendData, if_pos hseek]
  have hspec : ∀ content, ∃ ret frames,
      sendData b ctrl fdBin io content position = some (ret, frames) ∧
        (0 ≤ ret ↔ ∀ j, j * b.exynosPayloadLen < ctrl.size →
          0 ≤ getResp b (MSG MSG_CP2AP MSG_DOWNLOAD ctrl.stage MSG_DATA) (io.resp j)) ∧
        ∀ frame ∈ frames, frame.dataInfo = ⟨0, 0⟩ := by
    intro content
    rw [sendData, if_neg hseek]
    have hlen : (0 + 1) * b.exynosPayloadLen ≤ ctrl.size →
        (if ctrl.size < b.exynosPayloadLen then ctrl.size else b.exynosPayloadLen) =
          b.exynosPayloadLen := fun h => if_neg (by omega)
    simpa only [Nat.zero_mul, Nat.zero_le, forall_true_left] using
      sendTurns_spec (k := 0) ⟨0, 0, ⟨0, 0⟩, []⟩ (if ctrl.fd = fdBin then ctrl.offset else position)
        (by simp) hlen rfl (fuel_enough b ctrl.size)
  constructor
  · intro h
    by_cases hsize : ctrl.size = 0
    · exact .inl hsize
    refine .inr (.inr ?_)
    by_contra hno
    obtain ⟨ret, frames, hrun, hexact⟩ := h fun _ => 0
    obtain ⟨ret', frames', hrun', hok, hzero⟩ := hspec fun _ => 0
    obtain ⟨rfl, rfl⟩ := Prod.mk.inj (Option.some.inj (hrun.symm.trans hrun'))
    have hr : 0 ≤ ret := hok.mpr fun j hj => not_lt.mp fun hlt => hno ⟨j, hj, hlt⟩
    -- the first frame does not say the size, and without one there is no byte
    have hpieces := hexact hr
    cases frames with
    | nil => exact hsize hpieces.symm
    | cons frame frames =>
      have htotal : frame.dataInfo.totalSize = ctrl.size := hpieces.1.2.1
      rw [hzero frame List.mem_cons_self] at htotal
      exact hsize htotal.symm
  · intro h content
    by_cases hsize : ctrl.size = 0
    · refine ⟨0, [], ?_, fun _ => hsize.symm⟩
      rw [sendData, if_neg hseek, sendTurns, if_pos hsize]
    obtain ⟨ret, frames, hrun, hok, -⟩ := hspec content
    refine ⟨ret, frames, hrun, fun hr => ?_⟩
    obtain ⟨j, hj, hlt⟩ := (h.resolve_left hsize).resolve_left hseek
    exact absurd (hok.mp hr j hj) (by omega)

/-- **When a download is exact**, by either way. -/
theorem downloads_iff (b : Build) (ctrl : DownloadStageControl) (stage fdBin : ℕ) (io : Io)
    (position : ℕ) :
    (XmitExact b ctrl stage io position ↔ XmitRight b ctrl io position) ∧
      (SendExact b ctrl fdBin io position ↔ SendRight b ctrl io) :=
  ⟨xmitExact_iff, sendExact_iff⟩

/-- An image of one byte, -/
def oneByte : DownloadStageControl := ⟨0, 3, 512, 0, 1, by decide, by decide⟩

/-- its file empty where the image is to be, or not. -/
def plainIo (there : ℕ) : Io :=
  ⟨true, true, fun _ => some there, fun _ => 13, fun _ => ⟨0, 4, 0xC10B⟩⟩

/-- **Neither download is exact**: one byte that is not there is sent all the
same, and a frame of one byte says that it is of none. -/
theorem not_exact : ¬ XmitExact ⟨false, false⟩ oneByte 0 (plainIo 0) 0 ∧
    ¬ SendExact ⟨false, false⟩ oneByte 3 (plainIo 1) 0 := by
  constructor
  · intro h
    rcases xmitExact_iff.mp h with hsize | hfail | ⟨-, hfull⟩
    · exact absurd hsize (by decide)
    · rcases hfail with hmalloc | ⟨-, hseek⟩ | ⟨turn, -, hno⟩
      · exact absurd hmalloc (by decide)
      · exact absurd hseek (by decide)
      · exact hno ⟨nofun, show (0 : ℤ) ≤ 13 by decide⟩
    · exact absurd (hfull 0 (by decide)) (by decide)
  · intro h
    rcases sendExact_iff.mp h with hsize | hseek | ⟨turn, -, hresp⟩
    · exact absurd hsize (by decide)
    · exact absurd hseek (by decide)
    · exact absurd hresp (show ¬ getResp _ (MSG _ _ 0 _) ⟨0, 4, 0xC10B⟩ < 0 by decide)

end ExynosVendor.Cbd
