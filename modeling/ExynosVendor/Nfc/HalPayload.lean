import ExynosVendor.Nfc.HalSystem

/-!
# The payload of a message

What `nci_read_payload` and `fw_read_payload` store into the slot of a message,
and what the state machines then read of it. The slot has 259 bytes, of which
the union of `tNFC_HAL_MSG` leaves the first two out; the length of a packet is
that of its header, and the bytes may be fewer.

`received_safe_iff` says when all of it is in bounds.
-/

namespace ExynosVendor.Nfc

open List

/-- A packet as `read_thread` and the state machines find it: a header, and what
the device gives behind it. -/
structure Received where
  oct0 : BitVec 8
  oid : BitVec 8
  len : BitVec 8
  stream : List (BitVec 8)
  deriving DecidableEq

namespace Received

/-- The message that `read_thread` posts. -/
def posted (p : Received) : HalMsg := ⟨.read, [p.oct0, p.oid, p.len]⟩

/-- The payload that is stored, as far as the device gives it. -/
def payload (p : Received) : PayloadKind → List (BitVec 8)
  | .nci => p.stream.take p.len.toNat
  | .fw => p.stream.tail.take (p.len.toNat + 256 * (p.stream.getD 0 0).toNat)

/-- What stands in front of it: the header, and the high byte of the length. -/
def front (p : Received) : PayloadKind → List (BitVec 8)
  | .nci => [p.oct0, p.oid, p.len]
  | .fw => [p.oct0, p.oid, p.len] ++ p.stream.take 1

/-- The message with its payload. -/
def message (p : Received) (kind : PayloadKind) : HalMsg := ⟨.read, p.front kind ++ p.payload kind⟩

end Received

/-- **What the task reads of a packet** that is next in its stream, as long as
the device gives it. -/
theorem HalSystem.readData_received (s : HalSystem) (p : Received) (kind : PayloadKind)
    (hstream : s.stream = p.stream) {limit : ℕ} (hlimit : p.stream.length ≤ limit) :
    withPayload p.posted (s.readData kind p.posted limit).1 = p.message kind := by
  have htake : ∀ (l : List (BitVec 8)) (n m : ℕ), l.length ≤ m → l.take (min n m) = l.take n := by
    intro l n m hm
    rcases Nat.le_total n m with hn | hn
    · rw [Nat.min_eq_left hn]
    · rw [Nat.min_eq_right hn, take_of_length_le hm, take_of_length_le (by omega)]
  cases kind with
  | nci =>
    have hdata : (s.readData .nci p.posted limit).1 = p.stream.take p.len.toNat := by
      show s.stream.take (min p.len.toNat limit) = _
      rw [hstream, htake _ _ _ hlimit]
    rw [hdata]
    simp [withPayload, Received.posted, Received.message, Received.front, Received.payload,
      HalMsg.byte]
  | fw =>
    have hdata : (s.readData .fw p.posted limit).1 = p.stream.take 1 ++ p.payload .fw := by
      obtain ⟨oct0, oid, len, stream⟩ := p
      dsimp only at hstream hlimit
      cases stream with
      | nil => simp [readData, deviceRead, hstream, Received.payload]
      | cons high rest =>
        set p' : HalMsg := (Received.mk oct0 oid len (high :: rest)).posted
        have hlen := len.isLt
        have hhigh := high.isLt
        have hpos : min 1 limit = 1 := by simp at hlimit; omega
        have hmod : (len.toNat + 256 * high.toNat) % 2 ^ 16 = len.toNat + 256 * high.toNat :=
          Nat.mod_eq_of_lt (by omega)
        have hrest : rest.length ≤ limit - 1 := by simp at hlimit; omega
        have hread := htake rest (len.toNat + 256 * high.toNat) (limit - 1) hrest
        have hlow : p'.fwLen + 256 * high.toNat = len.toNat + 256 * high.toNat := rfl
        show (s.readData .fw p' limit).1 = [high] ++ rest.take (len.toNat + 256 * high.toNat)
        simp only [readData, deviceRead, hstream, hpos, take_succ_cons, take_zero, length_singleton,
          if_true, getD_cons_zero, drop_succ_cons, drop_zero, hlow, hmod, hread]
    rw [hdata]
    simp [withPayload, Received.posted, Received.message, Received.front, HalMsg.byte]

/-! ## Reads of the payload -/

/-- A read, from a place in the payload. -/
structure PayloadRead where
  start : ℤ
  count : ℕ
  deriving DecidableEq

/-- Its bytes are among so many. -/
def PayloadRead.Inside (n : ℕ) (r : PayloadRead) : Prop := 0 ≤ r.start ∧ r.start + r.count ≤ n

/-- How many bytes `strncpy` reads of a string. -/
def strncpyReads (n : ℕ) (src : List (BitVec 8)) : ℕ :=
  min n (((src.take n).takeWhile (· ≠ 0)).length + 1)

theorem strncpyReads_le (n : ℕ) (src : List (BitVec 8)) : strncpyReads n src ≤ n :=
  Nat.min_le_left _ _

/-- `NCI_MF_INFO`. -/
def mfInfoRead (pkt : NciPkt) : PayloadRead := ⟨(pkt.len.toNat : ℤ) - 4, 4⟩

/-- `NCI_STATUS`. -/
def statusRead : PayloadRead := ⟨0, 1⟩

section Reads

variable (ans : HalAnswers) (h : HalInfo)

/-- The bootloader has a version of its own, or the configuration an address. -/
def addressKnown (version : List (BitVec 8)) : Prop :=
  (productMap version).1 ≠ snfcUnknown ∨ ans.baseAddress.isSome

instance (version : List (BitVec 8)) : Decidable (addressKnown ans version) :=
  inferInstanceAs (Decidable (_ ∨ _))

/-- The version in a response of the bootloader. -/
def HalMsg.version (msg : HalMsg) : List (BitVec 8) :=
  [msg.fwByte 0, msg.fwByte 1, msg.fwByte 2, msg.fwByte 3]

/-- Whether `nfc_hal_open_sm` reads a base address. -/
def HalMsg.readsBase (msg : HalMsg) : Prop :=
  addressKnown ans msg.version ∧ snfcN74 ≤ (msg.fwByte 0).toNat

instance (msg : HalMsg) : Decidable (msg.readsBase ans) := inferInstanceAs (Decidable (_ ∧ _))

/-- `nfc_hal_open_sm`: the version, the four sizes and the base address. -/
def openReads (msg : HalMsg) : List PayloadRead :=
  if msg.fwCode ≠ fwRetSuccess then []
  else [⟨0, 4⟩, ⟨4, 2⟩, ⟨6, 2⟩, ⟨8, 2⟩, ⟨10, 2⟩] ++ if msg.readsBase ans then [⟨12, 2⟩] else []

/-- `hal_vs_set_rfreg_version`. -/
def rfregVersionReads : List PayloadRead :=
  if h.fw.bl.fromN74 then [⟨0, 1⟩, ⟨0, 1⟩, ⟨1, 1⟩, ⟨11, 1⟩, ⟨5, 5⟩, ⟨12, 3⟩] else [⟨1, 8⟩]

/-- `select_image_set_chip_code`, of a response with the version. -/
def chipCodeRead (pkt : NciPkt) : PayloadRead :=
  if pkt.nciOid = nciPropGetOptionMetaOid then ⟨12, strncpyReads 3 (pkt.payload.drop 12)⟩
  else ⟨6, strncpyReads 3 (pkt.payload.drop 6)⟩

/-- `nfc_hal_postinit_sm`. -/
def postinitReads (pkt : NciPkt) : List PayloadRead :=
  if pkt.gid = nciGidCore then
    if pkt.nciOid = nciCoreInit then [mfInfoRead pkt] else []
  else if h.fw.bl.versionOf pkt then rfregVersionReads h ++ [chipCodeRead pkt]
  else []

/-- `nfc_hal_fw_sm`, of a packet that is no frame of the bootloader. -/
def fwReads (pkt : NciPkt) : List PayloadRead :=
  match h.fw.state with
  | .w4NciPropFwCfg =>
      if ¬ pkt.answers nciGidProp nciPropFwCfg then []
      else [statusRead] ++ if pkt.status = nciClockStatusFull then [⟨1, 1⟩] else []
  | .w4NciResetRsp => if pkt.answers nciGidCore nciCoreReset then [statusRead] else []
  | .w4NciInitRsp =>
      if pkt.answers nciGidCore nciCoreInit then
        [statusRead] ++ if pkt.status = nciStatusOk then [mfInfoRead pkt, mfInfoRead pkt] else []
      else []
  | .w4NciResetVtsRsp =>
      if pkt.mt = nciMtNtf ∧ pkt.gid = nciGidProp ∧ pkt.nciOid = 0x3F ∧ pkt.len = 1 ∨
          pkt.answers nciGidCore nciCoreReset then [statusRead]
      else []
  | .w4NciInitVtsRsp => if pkt.answers nciGidCore nciCoreInit then [statusRead] else []
  | _ => []

/-- `nfc_hal_vs_sm`. -/
def vsReads (pkt : NciPkt) : List PayloadRead :=
  match h.vs.state with
  | .w4StartRfregRsp => if pkt.answers nciGidProp nciPropStartRfreg then [statusRead] else []
  | .w4FileRfregRsp => if pkt.answers nciGidProp nciPropSetRfreg then [statusRead] else []
  | .w4SetRfregVerRsp => if pkt.answers nciGidProp nciPropSetRfregVer then [statusRead] else []
  | .w4StopRfregRsp => [statusRead]
  | _ => []

/-- `nfc_hal_service_sm`: `nfc_hal_prehandler` looks into a command only. -/
def serviceReads (pkt : NciPkt) : List PayloadRead :=
  if pkt.mt = nciMtCmd ∧ pkt.gid = nciGidProp ∧ pkt.nciOid = nciPropSetSleepTime then
    (if 0 < pkt.len.toNat then [⟨0, 1⟩] else []) ++ (if 1 < pkt.len.toNat then [⟨1, 1⟩] else []) ++
      if 2 < pkt.len.toNat then [⟨2, 1⟩] else []
  else []

/-- **What a state machine reads of the payload** of a message, behind the
function that stores it. -/
def HalInfo.payloadReads (msg : HalMsg) : List PayloadRead :=
  match h.state with
  | .init | .deinit | .open => openReads ans msg
  | .fw => if h.fw.state.w4FwRsp then [] else fwReads h msg.nciPacket
  | .vs => vsReads h msg.nciPacket
  | .postinit => postinitReads h msg.nciPacket
  | .service => serviceReads msg.nciPacket
  | .granted | .close | .powercycle => []

/-! ## In bounds -/

/-- Where the union of a message starts in its slot. -/
def paramOffset : ℕ := 2

/-- **A packet is received safely**: what is stored of it lies in the slot, and
what is read of its payload has been received. -/
structure HalInfo.InBounds (p : Received) (kind : PayloadKind) : Prop where
  stored : paramOffset + (p.message kind).param.length ≤ osiMemPoolSize
  read : ∀ r ∈ h.payloadReads ans (p.message kind), r.Inside (p.payload kind).length

/-- How many bytes of the payload are there to be read, of `n`. -/
def fwEnough (pkt : NciPkt) (n : ℕ) : Prop :=
  match h.fw.state with
  | .w4NciPropFwCfg =>
      pkt.answers nciGidProp nciPropFwCfg → if pkt.status = nciClockStatusFull then 2 ≤ n else 1 ≤ n
  | .w4NciResetRsp => pkt.answers nciGidCore nciCoreReset → 1 ≤ n
  | .w4NciInitRsp =>
      pkt.answers nciGidCore nciCoreInit →
        1 ≤ n ∧ (pkt.status = nciStatusOk → 4 ≤ pkt.len.toNat ∧ pkt.len.toNat ≤ n)
  | .w4NciResetVtsRsp =>
      (pkt.mt = nciMtNtf ∧ pkt.gid = nciGidProp ∧ pkt.nciOid = 0x3F ∧ pkt.len = 1 ∨
        pkt.answers nciGidCore nciCoreReset) → 1 ≤ n
  | .w4NciInitVtsRsp => pkt.answers nciGidCore nciCoreInit → 1 ≤ n
  | _ => True

/-- And for `nfc_hal_vs_sm`. -/
def vsEnough (pkt : NciPkt) (n : ℕ) : Prop :=
  match h.vs.state with
  | .w4StartRfregRsp => pkt.answers nciGidProp nciPropStartRfreg → 1 ≤ n
  | .w4FileRfregRsp => pkt.answers nciGidProp nciPropSetRfreg → 1 ≤ n
  | .w4SetRfregVerRsp => pkt.answers nciGidProp nciPropSetRfregVer → 1 ≤ n
  | .w4StopRfregRsp => 1 ≤ n
  | _ => True

/-- **When `n` bytes of payload are enough** for the message. -/
def HalInfo.Enough (msg : HalMsg) (n : ℕ) : Prop :=
  match h.state with
  | .init | .deinit | .open =>
      msg.fwCode = fwRetSuccess → if msg.readsBase ans then 14 ≤ n else 12 ≤ n
  | .fw => h.fw.state.w4FwRsp = false → fwEnough h msg.nciPacket n
  | .vs => vsEnough h msg.nciPacket n
  | .postinit =>
      (msg.nciPacket.gid = nciGidCore ∧ msg.nciPacket.nciOid = nciCoreInit →
        4 ≤ msg.nciPacket.len.toNat ∧ msg.nciPacket.len.toNat ≤ n) ∧
      (h.fw.bl.versionOf msg.nciPacket → if h.fw.bl.fromN74 then 15 ≤ n else 9 ≤ n)
  | .service =>
      msg.nciPacket.mt = nciMtCmd ∧ msg.nciPacket.gid = nciGidProp ∧
        msg.nciPacket.nciOid = nciPropSetSleepTime → min 3 msg.nciPacket.len.toNat ≤ n
  | .granted | .close | .powercycle => True

/-- How much of a payload fits into the slot. -/
def payloadRoom : PayloadKind → ℕ
  | .nci => 254
  | .fw => 253

end Reads

/-! ## The reads, by their machines -/

section Machines

variable {ans : HalAnswers} {h : HalInfo} {n : ℕ} {pkt : NciPkt}

theorem statusRead_inside : statusRead.Inside n ↔ 1 ≤ n := by
  simp only [PayloadRead.Inside, statusRead]
  omega

theorem mfInfoRead_inside : (mfInfoRead pkt).Inside n ↔ 4 ≤ pkt.len.toNat ∧ pkt.len.toNat ≤ n := by
  simp only [PayloadRead.Inside, mfInfoRead]
  omega

/-- A status that is read under a condition. -/
theorem statusRead_if {c : Prop} [Decidable c] :
    (∀ r ∈ if c then [statusRead] else [], r.Inside n) ↔ (c → 1 ≤ n) := by
  split
  · rename_i hc
    simp only [mem_singleton, forall_eq, statusRead_inside, hc, forall_const]
  · rename_i hc
    simp only [not_mem_nil, false_imp_iff, implies_true, hc]

/-- **The bootloader's answer.** -/
theorem openReads_inside {msg : HalMsg} : (∀ r ∈ openReads ans msg, r.Inside n) ↔
    (msg.fwCode = fwRetSuccess → if msg.readsBase ans then 14 ≤ n else 12 ≤ n) := by
  unfold openReads
  by_cases hcode : msg.fwCode = fwRetSuccess
  · rw [if_neg (not_not.mpr hcode)]
    by_cases hbase : msg.readsBase ans
    · simp only [if_pos hbase, hcode, cons_append, nil_append, forall_mem_cons,
        PayloadRead.Inside, forall_const]
      simp
      omega
    · simp only [if_neg hbase, hcode, append_nil, forall_mem_cons, PayloadRead.Inside, forall_const]
      simp
      omega
  · simp [hcode]

/-- **The version of the RF registers**, with the code of the chip. -/
theorem versionReads_inside (hversion : h.fw.bl.versionOf pkt) :
    (∀ r ∈ rfregVersionReads h ++ [chipCodeRead pkt], r.Inside n) ↔
      if h.fw.bl.fromN74 then 15 ≤ n else 9 ≤ n := by
  have hoid := hversion.2
  have h12 := strncpyReads_le 3 (pkt.payload.drop 12)
  have h6 := strncpyReads_le 3 (pkt.payload.drop 6)
  unfold rfregVersionReads chipCodeRead
  by_cases hn74 : h.fw.bl.fromN74
  · rw [if_pos hn74] at hoid
    simp only [if_pos hn74, hoid, if_true, cons_append, nil_append,
      forall_mem_cons, PayloadRead.Inside]
    simp
    omega
  · rw [if_neg hn74] at hoid
    have hne : ¬ nciPropGetRfregVer = nciPropGetOptionMetaOid := by decide
    simp only [if_neg hn74, hoid, if_neg hne, cons_append, nil_append,
      forall_mem_cons, PayloadRead.Inside]
    simp
    omega

theorem postinitReads_inside : (∀ r ∈ postinitReads h pkt, r.Inside n) ↔
    (pkt.gid = nciGidCore ∧ pkt.nciOid = nciCoreInit →
        4 ≤ pkt.len.toNat ∧ pkt.len.toNat ≤ n) ∧
      (h.fw.bl.versionOf pkt → if h.fw.bl.fromN74 then 15 ≤ n else 9 ≤ n) := by
  unfold postinitReads
  by_cases hgid : pkt.gid = nciGidCore
  · have hversion : ¬ h.fw.bl.versionOf pkt := fun hv =>
      absurd (hgid.symm.trans hv.1) (by decide)
    rw [if_pos hgid]
    by_cases hoid : pkt.nciOid = nciCoreInit
    · rw [if_pos hoid, forall_mem_singleton, mfInfoRead_inside]
      simp [hgid, hoid, hversion]
    · simp [hoid, hversion]
  · rw [if_neg hgid]
    by_cases hversion : h.fw.bl.versionOf pkt
    · rw [if_pos hversion, versionReads_inside hversion]
      simp [hgid, hversion]
    · simp [hgid, hversion]

theorem fwReads_inside : (∀ r ∈ fwReads h pkt, r.Inside n) ↔ fwEnough h pkt n := by
  unfold fwReads fwEnough
  cases h.fw.state with
  | w4NciPropFwCfg =>
    dsimp only
    by_cases hrsp : pkt.answers nciGidProp nciPropFwCfg
    · by_cases hfull : pkt.status = nciClockStatusFull
      · simp only [hrsp, hfull, not_true_eq_false, if_false, if_true, cons_append,
          nil_append, forall_mem_cons, statusRead_inside, forall_const]
        simp [PayloadRead.Inside]
        omega
      · simp [hrsp, hfull, statusRead_inside]
    · simp [hrsp]
  | w4NciResetRsp => exact statusRead_if
  | w4NciInitRsp =>
    dsimp only
    by_cases hrsp : pkt.answers nciGidCore nciCoreInit
    · by_cases hok : pkt.status = nciStatusOk
      · simp [hrsp, hok, statusRead_inside, mfInfoRead_inside]
      · simp [hrsp, hok, statusRead_inside]
    · simp [hrsp]
  | w4NciResetVtsRsp => exact statusRead_if
  | w4NciInitVtsRsp => exact statusRead_if
  | _ => simp

theorem vsReads_inside : (∀ r ∈ vsReads h pkt, r.Inside n) ↔ vsEnough h pkt n := by
  unfold vsReads vsEnough
  cases h.vs.state with
  | w4StartRfregRsp => exact statusRead_if
  | w4FileRfregRsp => exact statusRead_if
  | w4SetRfregVerRsp => exact statusRead_if
  | w4StopRfregRsp => simp [statusRead_inside]
  | _ => simp

theorem serviceReads_inside : (∀ r ∈ serviceReads pkt, r.Inside n) ↔
    (pkt.mt = nciMtCmd ∧ pkt.gid = nciGidProp ∧ pkt.nciOid = nciPropSetSleepTime →
      min 3 pkt.len.toNat ≤ n) := by
  unfold serviceReads
  by_cases hsleep : pkt.mt = nciMtCmd ∧ pkt.gid = nciGidProp ∧ pkt.nciOid = nciPropSetSleepTime
  · rw [if_pos hsleep]
    simp only [hsleep, and_self, forall_const]
    split_ifs <;> simp [PayloadRead.Inside] <;> omega
  · simp [hsleep]

/-- **The reads are inside** where the payload is long enough. -/
theorem payloadReads_inside {msg : HalMsg} :
    (∀ r ∈ h.payloadReads ans msg, r.Inside n) ↔ h.Enough ans msg n := by
  unfold HalInfo.payloadReads HalInfo.Enough
  cases h.state with
  | init => exact openReads_inside
  | deinit => exact openReads_inside
  | «open» => exact openReads_inside
  | fw =>
    cases hw4 : h.fw.state.w4FwRsp with
    | true => simp
    | false => simpa [hw4] using fwReads_inside
  | vs => exact vsReads_inside
  | postinit => exact postinitReads_inside
  | service => exact serviceReads_inside
  | granted | close | powercycle => simp

end Machines

/-- What is stored lies in the slot. -/
theorem stored_iff (p : Received) (kind : PayloadKind) :
    paramOffset + (p.message kind).param.length ≤ osiMemPoolSize ↔
      (p.payload kind).length ≤ payloadRoom kind := by
  cases kind with
  | nci =>
    simp only [Received.message, Received.front, length_append, length_cons,
      length_nil, paramOffset, osiMemPoolSize, payloadRoom]
    omega
  | fw =>
    obtain ⟨oct0, oid, len, stream⟩ := p
    cases stream with
    | nil =>
      refine iff_of_true ?_ ?_
      · simp [Received.message, Received.front, Received.payload, paramOffset, osiMemPoolSize]
      · simp [Received.payload]
    | cons high rest =>
      simp only [Received.message, Received.front, length_append, length_cons, length_nil,
        take_succ_cons, take_zero, paramOffset, osiMemPoolSize, payloadRoom]
      omega

/-- **When a packet is received safely**: for every header, in every state of
the HAL, and whatever the device gives of the payload that the state reads. -/
theorem received_safe_iff (ans : HalAnswers) (h : HalInfo) (p : Received) :
    (∀ kind ∈ h.reads .read, h.InBounds ans p kind) ↔
      ∀ kind ∈ h.reads .read, (p.payload kind).length ≤ payloadRoom kind ∧
        h.Enough ans (p.message kind) (p.payload kind).length := by
  refine forall₂_congr fun kind _ => ?_
  rw [← stored_iff, ← payloadReads_inside]
  exact ⟨fun hin => ⟨hin.stored, hin.read⟩, fun hin => ⟨hin.1, hin.2⟩⟩

/-- **The longest packet** does not fit, by the byte in front of the union. -/
theorem not_received_safe :
    ¬ ∀ (ans : HalAnswers) (h : HalInfo) (p : Received),
      ∀ kind ∈ h.reads .read, h.InBounds ans p kind := by
  intro hall
  have hin := hall .plain { HalInfo.zero with state := .service }
    ⟨0x60, 0x08, 0xFF, List.replicate 255 0⟩ .nci rfl
  have hroom := (stored_iff _ _).mp hin.stored
  have hlen : (Received.payload ⟨0x60, 0x08, 0xFF, List.replicate 255 0⟩ .nci).length = 255 := by
    show ((List.replicate 255 (0 : BitVec 8)).take 255).length = 255
    rw [length_take, length_replicate, Nat.min_self]
  rw [hlen] at hroom
  exact absurd hroom (by decide)

end ExynosVendor.Nfc
