import ExynosVendor.Telephony.Dmd

/-!
# The silent log

`run_modem_monitor` of `dmd/dmd_main.cpp` in silent mode: a block of the
modem is read, its packets are copied behind a header each to one of two
buffers, and a full buffer is saved and the other one used. The length of
a frame says where its packet ends, and a second length in the packet how
much of it is copied. `roomy_iff` says of which blocks no copy leaves its
bounds.
-/

namespace ExynosVendor.Dmd

open Ril (BYTE)

/-- `DR_DM_SILENT_BUF_SIZE`. -/
def silentBufSize : ℕ := 2 * 1024 * 1024

/-- `sizeof(hdr)`. -/
def hdrSize : ℕ := 10

/-- A block of the modem, as `read` returns it. -/
structure Block where
  bytes : List BYTE
  nonempty : 0 < bytes.length
  short : bytes.length ≤ maxBuf - 1

/-- A copy: of the header to the silent buffer, of a packet there, or of a
packet to the version information. -/
inductive Copy where
  | header (dst : ℤ)
  | payload (src : ℕ) (dst length : ℤ)
  | version (src : ℕ) (length : ℤ)
  deriving DecidableEq

/-- The two silent buffers. -/
inductive SilentBuf where
  | first | second
  deriving DecidableEq

/-- What the packet loop works on. -/
structure Convert where
  /-- `p`, from the buffer's start. -/
  p : ℕ
  pktlen : ℤ
  rcvoffset : ℤ
  /-- `g_have_versioninfo`. -/
  haveVersion : Bool
  /-- The copies so far. -/
  copies : List Copy
  deriving DecidableEq

/-- `p[i] + (p[i + 1] << 8)`; a `char` of the vendor's targets has no
sign. -/
def number (mem : Memory) (i : ℕ) : ℕ := (mem i).toNat + ((mem (i + 1)).toNat <<< 8)

/-- `CheckVersionInfo`: whether the packet has the version. -/
def hasVersion (mem : Memory) (buff : ℕ) (buffLen : ℤ) : Bool :=
  0 < buffLen && (mem (buff + 2) == 0xA0 || mem (buff + 2) == 0xA1) && mem (buff + 3) == 0 &&
    mem (buff + 4) == 1

/-- A packet is copied, and the next one looked at. -/
def Convert.next (s : Convert) (mem : Memory) (msgLen : ℕ) (msgLennwf : ℤ) : Convert :=
  let bufnfm := s.p + 6
  let version := !s.haveVersion && hasVersion mem bufnfm msgLennwf
  let versions := if version then [Copy.version bufnfm msgLennwf] else []
  { p := s.p + (msgLen + 2)
    pktlen := s.pktlen - (msgLen + 2)
    rcvoffset := s.rcvoffset + hdrSize + msgLennwf
    haveVersion := s.haveVersion || version
    copies := s.copies ++ versions ++
      [.header s.rcvoffset, .payload bufnfm (s.rcvoffset + hdrSize) msgLennwf] }

/-- The loop over the packets, so many turns of it; without a value if it
has not ended by then. -/
def convert (mem : Memory) : ℕ → Convert → Option Convert
  | 0, s => if 0 < s.pktlen then none else some s
  | turns + 1, s =>
      if 0 < s.pktlen then
        if mem s.p ≠ msgStart then some s
        else
          let msgLen := number mem (s.p + 1)
          let msgLennwf : ℤ := number mem (s.p + 4) - 2
          if maxBuf - 2 < msgLen then some s
          else if mem (s.p + msgLen + 1) ≠ msgEnd then some s
          else convert mem turns (s.next mem msgLen msgLennwf)
      else some s

/-- The monitor's state in silent mode. -/
structure Silent where
  /-- `buffer`, with what stood behind it. -/
  buffer : Memory
  rcvoffset : ℤ
  scount : ℤ
  buff2use : SilentBuf
  switchclearbuff : Bool
  filesizeoffset : ℤ
  gZipOperation : Bool
  /-- `g_have_versioninfo`. -/
  haveVersion : Bool

namespace Silent

/-- Before the first block. -/
def start (buffer : Memory) (haveVersion : Bool) : Silent :=
  ⟨buffer, 0, silentBufSize, .first, false, 0, false, haveVersion⟩

/-- The buffer is saved, and the other one used. -/
def switch (maxSize : ℤ) (s : Silent) : Silent :=
  let size := s.filesizeoffset + s.rcvoffset
  { s with
    scount := silentBufSize
    filesizeoffset := if maxSize < size then 0 else size
    gZipOperation := s.gZipOperation || decide (maxSize < size)
    switchclearbuff := true
    buff2use := if s.buff2use = .first then .second else .first
    rcvoffset := 0 }

/-- Behind the loop: the margin and the countdown are checked. -/
def account (maxSize : ℤ) (s : Silent) (n : ℕ) : Silent :=
  let s := { s with scount := s.scount - (n + 4) }
  let s := if s.scount < 1000 ∨ (silentBufSize : ℤ) - 4576 < s.rcvoffset then s.switch maxSize
    else s
  if s.scount < (silentBufSize : ℤ) / 2 ∧ s.switchclearbuff then { s with switchclearbuff := false }
  else s

/-- The loop over a block that was read. -/
def packets (s : Silent) (b : Block) : Option Convert :=
  convert (s.buffer.store 0 b.bytes) b.bytes.length
    ⟨0, b.bytes.length, s.rcvoffset, s.haveVersion, []⟩

/-- A turn of `run_modem_monitor`; a loop that does not end leaves the state as it was. -/
def read (maxSize : ℤ) (s : Silent) (b : Block) : Silent :=
  match s.packets b with
  | none => s
  | some c =>
      account maxSize { s with
        buffer := s.buffer.store 0 b.bytes
        rcvoffset := c.rcvoffset
        haveVersion := c.haveVersion } b.bytes.length

end Silent

/-! ## What is to hold -/

/-- A copy that reads inside a block of so many bytes and writes inside the
silent buffer. The header and the version information have their own size. -/
def InBounds (n : ℕ) : Copy → Prop
  | .header dst => 0 ≤ dst ∧ dst + hdrSize ≤ silentBufSize
  | .payload src dst length => 0 ≤ length ∧ src + length ≤ n ∧ 0 ≤ dst ∧ dst + length ≤ silentBufSize
  | .version src length => 0 ≤ length ∧ src + length ≤ n

/-- **What is to hold of a block**: the packet loop ends, and no copy
leaves its bounds. -/
def Converts (s : Silent) (b : Block) : Prop :=
  ∃ c, s.packets b = some c ∧ ∀ copy ∈ c.copies, InBounds b.bytes.length copy

/-! ## The condition -/

/-- A packet that is found: where it starts, and the length that stands in
it. -/
structure Found where
  start : ℕ
  info : ℕ
  deriving DecidableEq

/-- The packets from an offset on, with so many bytes left, by the lengths
of their frames alone. -/
def found (mem : Memory) : ℕ → ℕ → ℤ → List Found
  | 0, _, _ => []
  | turns + 1, p, left =>
      let msgLen := number mem (p + 1)
      if 0 < left ∧ mem p = msgStart ∧ msgLen ≤ maxBuf - 2 ∧ mem (p + msgLen + 1) = msgEnd then
        ⟨p, number mem (p + 4)⟩ :: found mem turns (p + (msgLen + 2)) (left - (msgLen + 2))
      else []

/-- The packets of a block. -/
def Silent.found (s : Silent) (b : Block) : List Found :=
  Dmd.found (s.buffer.store 0 b.bytes) b.bytes.length 0 b.bytes.length

/-- **The condition on a block.** The length that stands in a packet counts
two bytes at least and does not lead behind the block, and with eight bytes
more for each packet there is room for all of them. -/
structure Roomy (s : Silent) (b : Block) : Prop where
  lengths : ∀ f ∈ s.found b, 2 ≤ f.info ∧ f.start + 4 + f.info ≤ b.bytes.length
  room : s.rcvoffset + (((s.found b).map fun f => f.info + 8).sum : ℕ) ≤ silentBufSize

/-! ## The loop -/

/-- The bytes a list of packets takes in the silent buffer. -/
def room (packets : List Found) : ℕ := (packets.map fun f => f.info + 8).sum

/-- Packets whose copies stay in a block and in the silent buffer. -/
def Fit (n : ℕ) (rcvoffset : ℤ) (packets : List Found) : Prop :=
  (∀ f ∈ packets, 2 ≤ f.info ∧ f.start + 4 + f.info ≤ n) ∧
    rcvoffset + room packets ≤ silentBufSize

section Loop

variable {mem : Memory} {n turns msgLen info : ℕ} {s c : Convert}

theorem room_cons (f : Found) (packets : List Found) :
    room (f :: packets) = f.info + 8 + room packets := rfl

theorem fit_cons {rcvoffset : ℤ} {f : Found} {packets : List Found} :
    Fit n rcvoffset (f :: packets) ↔
      (2 ≤ f.info ∧ f.start + 4 + f.info ≤ n) ∧
        Fit n (rcvoffset + (f.info + 8 : ℕ)) packets := by
  have hsum : rcvoffset + (f.info + 8 + room packets : ℕ) =
      rcvoffset + (f.info + 8 : ℕ) + room packets := by
    push_cast
    omega
  unfold Fit
  rw [List.forall_mem_cons, room_cons, hsum, and_assoc]

/-- **One packet.** Its copies stay in their bounds exactly if its length
does. -/
theorem inBounds_next (hr : 0 ≤ s.rcvoffset) :
    (∀ copy ∈ (s.next mem msgLen (info - 2)).copies, InBounds n copy) ↔
      (∀ copy ∈ s.copies, InBounds n copy) ∧ (2 ≤ info ∧ s.p + 4 + info ≤ n) ∧
        s.rcvoffset + (info + 8 : ℕ) ≤ silentBufSize := by
  have hheader : InBounds n (.header s.rcvoffset) ↔ s.rcvoffset + hdrSize ≤ silentBufSize :=
    and_iff_right hr
  have hpayload : InBounds n (.payload (s.p + 6) (s.rcvoffset + hdrSize) (info - 2)) ↔
      (2 ≤ info ∧ s.p + 4 + info ≤ n) ∧ s.rcvoffset + (info + 8 : ℕ) ≤ silentBufSize := by
    unfold InBounds hdrSize
    push_cast
    omega
  have hversion : (2 ≤ info ∧ s.p + 4 + info ≤ n) → InBounds n (.version (s.p + 6) (info - 2)) := by
    rintro ⟨hinfo, hend⟩
    unfold InBounds
    push_cast
    omega
  unfold Convert.next
  dsimp only
  simp only [List.forall_mem_append, List.forall_mem_cons, hheader, hpayload]
  constructor
  · rintro ⟨⟨hold, -⟩, -, hnew, -⟩
    exact ⟨hold, hnew⟩
  · rintro ⟨hold, hlen, hroom⟩
    refine ⟨⟨hold, fun copy hcopy => ?_⟩, ?_, ⟨hlen, hroom⟩, nofun⟩
    · split at hcopy
      · rw [List.mem_singleton.mp hcopy]
        exact hversion hlen
      · cases hcopy
    · unfold hdrSize
      push_cast at hroom ⊢
      omega

/-- **The loop ends**: a turn that does not leave it takes two bytes at
least. -/
theorem convert_ends (h : s.pktlen ≤ turns) : ∃ c, convert mem turns s = some c := by
  induction turns generalizing s with
  | zero => exact ⟨s, if_neg (by omega)⟩
  | succ turns ih =>
    unfold convert
    split
    · split
      · exact ⟨s, rfl⟩
      dsimp only
      split
      · exact ⟨s, rfl⟩
      split
      · exact ⟨s, rfl⟩
      · refine ih ?_
        show s.pktlen - (_ + 2) ≤ _
        omega
    · exact ⟨s, rfl⟩

/-- A turn that copies a packet, and one that leaves the loop. -/
theorem convert_succ (mem : Memory) (turns : ℕ) (s : Convert) :
    (0 < s.pktlen ∧ mem s.p = msgStart ∧ number mem (s.p + 1) ≤ maxBuf - 2 ∧
        mem (s.p + number mem (s.p + 1) + 1) = msgEnd ∧
      convert mem (turns + 1) s =
        convert mem turns (s.next mem (number mem (s.p + 1)) (number mem (s.p + 4) - 2)) ∧
      found mem (turns + 1) s.p s.pktlen = ⟨s.p, number mem (s.p + 4)⟩ ::
        found mem turns (s.p + (number mem (s.p + 1) + 2))
          (s.pktlen - (number mem (s.p + 1) + 2))) ∨
    convert mem (turns + 1) s = some s ∧ found mem (turns + 1) s.p s.pktlen = [] := by
  by_cases hturn : 0 < s.pktlen ∧ mem s.p = msgStart ∧ number mem (s.p + 1) ≤ maxBuf - 2 ∧
      mem (s.p + number mem (s.p + 1) + 1) = msgEnd
  · obtain ⟨hpos, hstart, hlen, hend⟩ := hturn
    refine Or.inl ⟨hpos, hstart, hlen, hend, ?_, if_pos ⟨hpos, hstart, hlen, hend⟩⟩
    rw [convert, if_pos hpos, if_neg (not_not.mpr hstart)]
    dsimp only
    rw [if_neg (Nat.not_lt.mpr hlen), if_neg (not_not.mpr hend)]
  · refine Or.inr ⟨?_, if_neg hturn⟩
    unfold convert
    dsimp only
    split
    · next hpos =>
      split
      · rfl
      next hstart =>
      split
      · rfl
      next hlen =>
      split
      · rfl
      next hend =>
        exact absurd ⟨hpos, not_not.mp hstart, Nat.not_lt.mp hlen, not_not.mp hend⟩ hturn
    · rfl

/-- The copies made so far are kept. -/
theorem copies_convert (h : convert mem turns s = some c) : ∀ copy ∈ s.copies, copy ∈ c.copies := by
  induction turns generalizing s with
  | zero =>
    unfold convert at h
    split at h
    · cases h
    · cases h
      exact fun _ hcopy => hcopy
  | succ turns ih =>
    rcases convert_succ mem turns s with ⟨-, -, -, -, heq, -⟩ | ⟨heq, -⟩
    · rw [heq] at h
      intro copy hcopy
      exact ih h copy (List.mem_append_left _ (List.mem_append_left _ hcopy))
    · rw [heq] at h
      cases h
      exact fun _ hcopy => hcopy

theorem rcvoffset_convert (h : convert mem turns s = some c) :
    c.rcvoffset = s.rcvoffset + room (found mem turns s.p s.pktlen) := by
  induction turns generalizing s with
  | zero =>
    unfold convert at h
    split at h
    · cases h
    · cases h
      exact (Int.add_zero _).symm
  | succ turns ih =>
    rcases convert_succ mem turns s with ⟨-, -, -, -, heq, hfound⟩ | ⟨heq, hfound⟩
    · rw [heq] at h
      rw [hfound, room_cons, ih h]
      unfold Convert.next hdrSize
      push_cast
      omega
    · rw [heq] at h
      cases h
      rw [hfound]
      exact (Int.add_zero _).symm

/-- **What the loop copies** stays in its bounds exactly if its packets
fit. -/
theorem inBounds_convert (h : convert mem turns s = some c) (hr : 0 ≤ s.rcvoffset)
    (hsize : s.rcvoffset ≤ silentBufSize) :
    (∀ copy ∈ c.copies, InBounds n copy) ↔ (∀ copy ∈ s.copies, InBounds n copy) ∧
      Fit n s.rcvoffset (found mem turns s.p s.pktlen) := by
  have hnil : Fit n s.rcvoffset [] := ⟨nofun, by rw [show room [] = 0 from rfl]; push_cast; omega⟩
  induction turns generalizing s with
  | zero =>
    unfold convert at h
    split at h
    · cases h
    · cases h
      exact (and_iff_left hnil).symm
  | succ turns ih =>
    rcases convert_succ mem turns s with ⟨-, -, -, -, heq, hfound⟩ | ⟨heq, hfound⟩
    · rw [heq] at h
      rw [hfound, fit_cons]
      have hnext : (∀ copy ∈ (s.next mem (number mem (s.p + 1))
          (number mem (s.p + 4) - 2)).copies, InBounds n copy) ↔ _ := inBounds_next hr
      generalize hs' : s.next mem (number mem (s.p + 1)) (number mem (s.p + 4) - 2) = s' at h hnext
      have hrcv : s'.rcvoffset = s.rcvoffset + (number mem (s.p + 4) + 8 : ℕ) := by
        rw [← hs']
        unfold Convert.next hdrSize
        push_cast
        omega
      have hfound' : found mem turns s'.p s'.pktlen = found mem turns
          (s.p + (number mem (s.p + 1) + 2)) (s.pktlen - (number mem (s.p + 1) + 2)) := by
        rw [← hs']
        rfl
      by_cases hroom : s.rcvoffset + (number mem (s.p + 4) + 8 : ℕ) ≤ silentBufSize
      · have hnil' : Fit n s'.rcvoffset [] := ⟨nofun, by rw [show room [] = 0 from rfl]; push_cast; omega⟩
        have hrest := ih h (by omega) (by omega) hnil'
        refine hrest.trans ?_
        rw [hnext, hfound', hrcv]
        tauto
      · -- the packet does not fit, whatever comes behind it
        refine iff_of_false (fun hall => hroom ?_) fun hfit => hroom ?_
        · have hcopies := fun copy hcopy => hall copy (copies_convert h copy hcopy)
          exact (hnext.mp hcopies).2.2
        · have hle := hfit.2.2.2
          dsimp only at hle
          omega
    · rw [heq] at h
      cases h
      rw [hfound]
      exact (and_iff_left hnil).symm

end Loop

/-! ## Runs -/

/-- **The invariant.** There is a margin behind what was copied. -/
structure Margin (s : Silent) : Prop where
  nonneg : 0 ≤ s.rcvoffset
  margin : s.rcvoffset ≤ silentBufSize - 4576

theorem margin_start (buffer : Memory) (haveVersion : Bool) :
    Margin (Silent.start buffer haveVersion) := by
  refine ⟨Int.le_refl _, ?_⟩
  show (0 : ℤ) ≤ silentBufSize - 4576
  decide

theorem Silent.account_rcvoffset (maxSize : ℤ) (s : Silent) (n : ℕ) :
    (s.account maxSize n).rcvoffset = 0 ∨
      (s.account maxSize n).rcvoffset = s.rcvoffset ∧ s.rcvoffset ≤ silentBufSize - 4576 := by
  unfold account
  dsimp only
  by_cases hfull : s.scount - (n + 4) < 1000 ∨ (silentBufSize : ℤ) - 4576 < s.rcvoffset
  · rw [if_pos hfull]
    left
    split <;> rfl
  · rw [if_neg hfull]
    right
    refine ⟨by split <;> rfl, ?_⟩
    omega

theorem Silent.packets_eq (s : Silent) (b : Block) : ∃ c, s.packets b = some c ∧
    c.rcvoffset = s.rcvoffset + room (s.found b) := by
  obtain ⟨c, hc⟩ : ∃ c, s.packets b = some c := convert_ends (Int.le_refl _)
  exact ⟨c, hc, rcvoffset_convert hc⟩

theorem Margin.read {s : Silent} (h : Margin s) (maxSize : ℤ) (b : Block) :
    Margin (s.read maxSize b) := by
  obtain ⟨c, hc, hrcv⟩ := s.packets_eq b
  unfold Silent.read
  rw [hc]
  dsimp only
  have hpos := h.nonneg
  rcases Silent.account_rcvoffset maxSize { s with
    buffer := s.buffer.store 0 b.bytes
    rcvoffset := c.rcvoffset
    haveVersion := c.haveVersion } b.bytes.length with hzero | ⟨hsame, hle⟩
  · constructor
    · rw [hzero]
    · rw [hzero]
      decide
  · dsimp only at hsame hle
    constructor
    · rw [hsame]
      omega
    · rw [hsame]
      exact hle

/-- **A block.** -/
theorem Margin.converts_iff {s : Silent} (h : Margin s) (b : Block) :
    Converts s b ↔ Roomy s b := by
  obtain ⟨c, hc, -⟩ := s.packets_eq b
  have hle : s.rcvoffset ≤ silentBufSize := by
    have := h.margin
    omega
  have hbounds := inBounds_convert (n := b.bytes.length) hc h.nonneg hle
  have hroomy : Roomy s b ↔ Fit b.bytes.length s.rcvoffset (s.found b) :=
    ⟨fun hr => ⟨hr.lengths, hr.room⟩, fun hf => ⟨hf.1, hf.2⟩⟩
  rw [hroomy]
  constructor
  · rintro ⟨c', hc', hall⟩
    rw [hc] at hc'
    cases hc'
    exact (hbounds.mp hall).2
  · exact fun hfit => ⟨c, hc, hbounds.mpr ⟨nofun, hfit⟩⟩

/-- **When the silent log stays in its bounds.** For every sequence of
blocks of any bytes, from any memory: every block is converted in bounds
exactly if the condition holds of every block. -/
theorem roomy_iff (maxSize : ℤ) (buffer : Memory) (haveVersion : Bool) (blocks : List Block) :
    Run.Throughout (Silent.read maxSize) Converts (Silent.start buffer haveVersion) blocks ↔
      Run.Throughout (Silent.read maxSize) Roomy (Silent.start buffer haveVersion) blocks :=
  Run.Throughout.iff_of_invariant (P := Margin) (fun _ b h _ => h.read maxSize b)
    (fun _ b h => h.converts_iff b) (margin_start buffer haveVersion)

/-- A frame whose packet has a length of zero. -/
def emptyPacket : Block := ⟨[0x7F, 5, 0, 0, 0, 0, 0x7E], by decide, by decide⟩

/-- **There the packet's length is negative.** -/
theorem not_converts_emptyPacket :
    ¬ Run.Throughout (Silent.read silentBufSize) Converts (Silent.start (fun _ => 0) true)
      [emptyPacket] := by
  rintro ⟨⟨c, hc, hall⟩, -⟩
  have hpackets : (Silent.start (fun _ => 0) true).packets emptyPacket =
      some ⟨7, 0, 8, true, [.header 0, .payload 6 10 (-2)]⟩ := by decide +kernel
  rw [hpackets] at hc
  cases hc
  have hpayload := hall (.payload 6 10 (-2)) (by decide)
  exact absurd hpayload.1 (by decide)

end ExynosVendor.Dmd
