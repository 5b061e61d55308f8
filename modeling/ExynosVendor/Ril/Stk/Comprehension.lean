import ExynosVendor.Common.PrefixCode
import ExynosVendor.Ril.Stk.TlvParser

/-!
# Comprehension — the object list of a proactive command

`Comprehension` of `stk/comprehension.cpp`: the loop of `Set` cuts one
object after another off the byte string, with a class chosen by the tag,
and `AppendTlv` keeps a list of them and re-encodes each into one growing
buffer. The loop is `setLoop`, by the bytes that are left.

What it does to the list does not depend on the buffer: `parse` is the
list alone, and `setLoop_eq` is that the loop computes it, and faults
where `parse` says it does.
-/

namespace ExynosVendor.Ril

open Option

/-- `Comprehension`'s fields. -/
structure Comprehension where
  /-- `m_nLength`. -/
  nLength : ℕ
  /-- `m_pData`, its block. -/
  pData : Option (List BYTE)
  /-- `m_vectorTlvs`. -/
  vectorTlvs : List TlvObject

namespace Comprehension

/-- A new object. -/
def initialized : Comprehension where
  nLength := 0
  pData := none
  vectorTlvs := []

/-- `Comprehension::NewTlv(BYTE)`: the class of a masked tag, or `NULL`.
Two of the constructors build a `string` from a null pointer. -/
def newTlv (cTag : BYTE) : Option (Option TlvClass) :=
  if cTag = tagCommandDetail then some (some .commandDetail)
  else if cTag = tagDeviceIdentity then some (some .deviceIdentity)
  else if cTag = tagResult then some (some .result)
  else if cTag = tagAlphaIdentifier then none
  else if cTag = tagTextString then some (some .textString)
  else if cTag = tagEventList then some (some .eventList)
  else if cTag = tagBearerDescription then none
  else if cTag = tagChannelData then some (some .channelData)
  else if cTag = tagChannelDataLength then some (some .channelDataLength)
  else if cTag = tagChannelStatus then some (some .channelStatus)
  else if cTag = tagBufferSize then some (some .bufferSize)
  else if cTag = tagUiccTerminalInterfaceTransportLevel then
    some (some .terminalInterfaceTransportLevel)
  else if cTag = tagOtherAddress then some (some .otherAddress)
  else if cTag = tagNetworkAccessName then some (some .networkAccessName)
  else if cTag = tagUtranEutranMeasurementQualifier then some (some .measurementQualifier)
  else if cTag = tagCsgIdList then some none
  else if cTag = tagIconIdentifier then some (some .iconIdentifier)
  else if cTag = tagAddress then some (some .address)
  else if cTag = tagSubAddress then some (some .subaddress)
  else if cTag = tagDuration then some (some .duration)
  else if cTag = tagTextAttribute then some (some .textAttribute)
  else if cTag = tagFrameIdentifier then some (some .frameIdentifier)
  else if cTag = tagRemoteEntityAddress then some (some .remoteEntityAddress)
  else some (some .ctlv)

/-- The buffer `AppendTlv` replaces: a block for the bytes counted so far
and `nTlvLength` more, with the old bytes at its front. -/
def growBuffer (P : Platform) (c : Comprehension) (nTlvLength : ℕ) : Option (List BYTE) :=
  match c.pData with
  | none => some (P.newBytes (c.nLength + nTlvLength))
  | some old => do
      let pData ← Block.store (P.newBytes (c.nLength + nTlvLength)) 0
        (List.replicate nTlvLength 0)
      let bytes ← Block.load old 0 c.nLength
      Block.store pData 0 bytes

def appendTlv (P : Platform) (c : Comprehension) (pTlv : TlvObject) : Option Comprehension := do
  let pTlvData ← pTlv.tlv.getRawData P
  let nTlvLength := pTlv.tlv.getRawDataLength
  let pData ← growBuffer P c nTlvLength
  match pTlvData with
  | none =>
      some { c with pData := some pData, vectorTlvs := c.vectorTlvs ++ [pTlv] }
  | some tlvData => do
      let bytes ← Block.load tlvData 0 nTlvLength
      let pData ← Block.store pData c.nLength bytes
      some ⟨c.nLength + nTlvLength, some pData, c.vectorTlvs ++ [pTlv]⟩

end Comprehension

/-! ## Every cut makes progress -/

theorem CTLV.next_eq_some {rest nx : List BYTE} (h : CTLV.next rest = some nx) :
    nx = rest ∧ rest ≠ [] := by
  unfold CTLV.next at h
  split_ifs at h with hnil
  exact ⟨(some.inj h).symm, hnil⟩

variable {P : Platform}

/-- The length field is at least one byte. -/
theorem CTLV.setLength_lt {k : ℕ} {bs r : List BYTE} {nLen : ℤ}
    (h : CTLV.setLength P k bs = some (nLen, r)) : r.length < bs.length := by
  cases bs with
  | nil => cases h
  | cons b bs =>
      simp only [CTLV.setLength] at h
      split_ifs at h
      · simp only [some.injEq, Prod.mk.injEq] at h
        rw [← h.2, List.length_cons]
        omega
      · cases bs with
        | nil => cases h
        | cons l r' =>
            simp only [some.injEq, Prod.mk.injEq] at h
            rw [← h.2]
            simp only [List.length_cons]
            omega
      · rcases bs with _ | ⟨l0, _ | ⟨l1, r'⟩⟩
        · cases h
        · cases h
        · simp only [some.injEq, Prod.mk.injEq] at h
          rw [← h.2]
          simp only [List.length_cons]
          omega
      · rcases bs with _ | ⟨l0, _ | ⟨l1, _ | ⟨l2, r'⟩⟩⟩
        · cases h
        · cases h
        · cases h
        · simp only [some.injEq, Prod.mk.injEq] at h
          rw [← h.2]
          simp only [List.length_cons]
          omega

/-- What `CTLV::Set` leaves is shorter than what it was given. -/
theorem CTLV.set_next_lt {t t' : CTLV} {bs rest : List BYTE}
    (h : t.set P bs = some (t', some rest)) :
    rest.length < bs.length := by
  match bs, h with
  | [], h => cases h
  | [_], h => cases h
  | cTag :: b :: r, h =>
      by_cases hthree : (cTag :: b :: r).length = 3 ∧ cTag = 0x7F
      · rw [CTLV.set, if_pos hthree] at h
        cases h
      · rw [CTLV.set, if_neg hthree] at h
        cases hlen : CTLV.setLength P (cTag :: b :: r).length (b :: r) with
        | none =>
            rw [hlen] at h
            cases h
        | some cut =>
            obtain ⟨nLen, pValue⟩ := cut
            have hlt := CTLV.setLength_lt hlen
            rw [hlen] at h
            dsimp only at h
            split_ifs at h with h2 hle hneg
            · cases h
            · simp only [some.injEq, Prod.mk.injEq] at h
              obtain ⟨rfl, -⟩ := CTLV.next_eq_some h.2
              rw [List.length_drop]
              simp only [List.length_cons] at hlt ⊢
              omega
            · cases h

theorem TlvClass.set_next_lt {cls : TlvClass} {o : TlvObject} {bs rest : List BYTE}
    (h : cls.set P bs = some (o, some rest)) : rest.length < bs.length := by
  simp only [TlvClass.set, bind_eq_bind, bind_eq_some_iff, some.injEq, Prod.mk.injEq] at h
  obtain ⟨⟨t, nx⟩, hset, f, -, -, rfl⟩ := h
  exact CTLV.set_next_lt hset

namespace Comprehension

/-! ## The loop -/

/-- The loop of `Comprehension::Set`, on the bytes `pNext` points at;
`none` is a null `pNext`. -/
def setLoop (P : Platform) (c : Comprehension) : Option (List BYTE) → Option Comprehension
  | none => some c
  | some [] => some c
  | some (b :: rest) =>
      match newTlv (b &&& CTLV.tlvTagMask) with
      | none => none
      | some none => some c
      | some (some cls) =>
          match _hset : cls.set P (b :: rest) with
          | none => none
          | some (pTlv, pNext) =>
              match c.appendTlv P pTlv with
              | none => none
              | some c => setLoop P c pNext
termination_by pNext => (pNext.map List.length).getD 0
decreasing_by
  cases pNext with
  | none => simp
  | some nx => exact TlvClass.set_next_lt _hset

/-- `Comprehension::Set(const BYTE *, int)` on a new object. -/
def set (P : Platform) (pData : List BYTE) : Option Comprehension :=
  setLoop P initialized (some pData)

/-- The objects the loop appends, buffer aside. -/
def parse (P : Platform) : Option (List BYTE) → Option (List TlvObject)
  | none => some []
  | some [] => some []
  | some (b :: rest) =>
      match newTlv (b &&& CTLV.tlvTagMask) with
      | none => none
      | some none => some []
      | some (some cls) =>
          match _hset : cls.set P (b :: rest) with
          | none => none
          | some (pTlv, pNext) =>
              if (pTlv.tlv.getRawData P).isSome then (parse P pNext).map (pTlv :: ·) else none
termination_by pNext => (pNext.map List.length).getD 0
decreasing_by
  cases pNext with
  | none => simp
  | some nx => exact TlvClass.set_next_lt _hset

/-- The buffer is as large as the length says at least. -/
def WellSized (c : Comprehension) : Prop :=
  ∀ block ∈ c.pData, c.nLength ≤ block.length

theorem initialized_wellSized : WellSized initialized := by
  intro block hblock
  cases hblock

/-- The loop on a byte string, as a chain of its steps. -/
theorem setLoop_cons (P : Platform) (c : Comprehension) (b : BYTE) (rest : List BYTE) :
    setLoop P c (some (b :: rest)) =
      (newTlv (b &&& CTLV.tlvTagMask)).bind fun
        | none => some c
        | some cls => (cls.set P (b :: rest)).bind fun cut =>
            (c.appendTlv P cut.1).bind fun c => setLoop P c cut.2 := by
  rw [setLoop]
  cases newTlv (b &&& CTLV.tlvTagMask) with
  | none => rfl
  | some made =>
      cases made with
      | none => rfl
      | some cls =>
          dsimp only [bind_some]
          split
          · next h => rw [h]; rfl
          · next pTlv pNext h =>
              rw [h, bind_some]
              cases c.appendTlv P pTlv with
              | none => rfl
              | some c => rfl

/-- And the list it appends. -/
theorem parse_cons (P : Platform) (b : BYTE) (rest : List BYTE) :
    parse P (some (b :: rest)) =
      (newTlv (b &&& CTLV.tlvTagMask)).bind fun
        | none => some []
        | some cls => (cls.set P (b :: rest)).bind fun cut =>
            if (cut.1.tlv.getRawData P).isSome then (parse P cut.2).map (cut.1 :: ·) else none := by
  rw [parse]
  cases newTlv (b &&& CTLV.tlvTagMask) with
  | none => rfl
  | some made =>
      cases made with
      | none => rfl
      | some cls =>
          dsimp only [bind_some]
          split
          · next h => rw [h]; rfl
          · next pTlv pNext h => rw [h, bind_some]

end Comprehension

theorem CTLV.eq_ofValue {t : CTLV} {value : List BYTE} (h : t.pValue = some value) :
    t = CTLV.ofValue t.cTag value := by
  obtain ⟨cTag, nLength, pValue, hlen⟩ := t
  dsimp only at h
  subst h
  dsimp only [Option.elim] at hlen
  subst hlen
  rfl

/-- What the encoder returns is as long as the length it announces. -/
theorem CTLV.getRawDataLength_le {t : CTLV} {raw : List BYTE}
    (h : t.getRawData P = some (some raw)) :
    t.getRawDataLength ≤ raw.length := by
  cases hvalue : t.pValue with
  | none =>
      simp only [CTLV.getRawData, hvalue, some.injEq, reduceCtorEq] at h
  | some value =>
      rw [CTLV.eq_ofValue hvalue] at h ⊢
      by_cases hnil : value = []
      · subst hnil
        exact Nat.zero_le _
      · rw [CTLV.getRawDataLength_ofValue hnil]
        by_cases h2 : 2 ≤ value.length
        · by_cases h7f : value.length = 3 ∧ value[0]? = some 0x7F
          · rw [CTLV.getRawData_three h7f.1 h7f.2] at h
            cases h
          · rw [CTLV.getRawData_eq h2 h7f] at h
            split_ifs at h with hfit
            simp only [some.injEq] at h
            rw [← h, List.length_append]
            omega
        · have hpos := List.length_pos_iff.mpr hnil
          obtain ⟨x, rfl⟩ : ∃ x, value = [x] := List.length_eq_one_iff.mp (by omega)
          rw [CTLV.getRawData_single] at h
          simp only [some.injEq] at h
          rw [← h, List.length_append]
          omega

namespace Comprehension

/-- The new buffer is found room for, whatever the old one held. -/
theorem growBuffer_eq (P : Platform) {c : Comprehension} (hc : c.WellSized) (n : ℕ) :
    ∃ block, growBuffer P c n = some block ∧ block.length = P.heap.usable (c.nLength + n) := by
  have hle := P.heap.le_usable (c.nLength + n)
  cases hdata : c.pData with
  | none => exact ⟨_, by rw [growBuffer, hdata], Platform.newBytes_length P _⟩
  | some old =>
      have hold := hc old hdata
      have hzero : (List.replicate n (0 : BYTE)).length ≤ (P.newBytes (c.nLength + n)).length := by
        rw [List.length_replicate, Platform.newBytes_length]
        omega
      obtain ⟨zeroed, hmemset⟩ : ∃ zeroed, Block.store (P.newBytes (c.nLength + n)) 0
          (List.replicate n 0) = some zeroed := ⟨_, Block.store_zero hzero⟩
      have hlen := Block.store_length hmemset
      rw [Platform.newBytes_length] at hlen
      have hload : Block.load old 0 c.nLength = some (old.take c.nLength) := by
        rw [Block.load_of_le (by omega)]
        rfl
      have hfront : (old.take c.nLength).length ≤ zeroed.length := by
        rw [hlen, List.length_take]
        omega
      obtain ⟨block, hcopy⟩ : ∃ block, Block.store zeroed 0 (old.take c.nLength) = some block :=
        ⟨_, Block.store_zero hfront⟩
      refine ⟨block, ?_, ?_⟩
      · simp only [growBuffer, hdata, hmemset, hload, bind_eq_bind, bind_some]
        exact hcopy
      · rw [Block.store_length hcopy, hlen]

/-- **`AppendTlv` fails only where the encoder does**; otherwise the
object is appended and the buffer has room for what it counts. -/
theorem appendTlv_spec (P : Platform) {c : Comprehension} (hc : c.WellSized) (o : TlvObject) :
    match o.tlv.getRawData P with
    | none => c.appendTlv P o = none
    | some _ => ∃ c', c.appendTlv P o = some c' ∧ c'.vectorTlvs = c.vectorTlvs ++ [o] ∧
        c'.WellSized := by
  obtain ⟨block, hgrow, hblock⟩ := growBuffer_eq P hc o.tlv.getRawDataLength
  have hle := P.heap.le_usable (c.nLength + o.tlv.getRawDataLength)
  cases hraw : o.tlv.getRawData P with
  | none => simp only [appendTlv, hraw, bind_eq_bind, bind_none]
  | some pTlvData =>
      cases pTlvData with
      | none =>
          refine ⟨{ c with pData := some block, vectorTlvs := c.vectorTlvs ++ [o] }, ?_, rfl, ?_⟩
          · simp only [appendTlv, hraw, hgrow, bind_eq_bind, bind_some]
          · rintro _ ⟨⟩
            dsimp only
            omega
      | some raw =>
          have hlen := CTLV.getRawDataLength_le hraw
          have hload : Block.load raw 0 o.tlv.getRawDataLength =
              some (raw.take o.tlv.getRawDataLength) := by
            rw [Block.load_of_le (by omega)]
            rfl
          have hroom : c.nLength + (raw.take o.tlv.getRawDataLength).length ≤ block.length := by
            rw [hblock, List.length_take]
            omega
          obtain ⟨block', hstore⟩ :=
            isSome_iff_exists.mp (Block.store_isSome_iff.mpr hroom)
          refine ⟨⟨c.nLength + o.tlv.getRawDataLength, some block', c.vectorTlvs ++ [o]⟩, ?_,
            rfl, ?_⟩
          · simp only [appendTlv, hraw, hgrow, hload, hstore, bind_eq_bind, bind_some]
          · rintro _ ⟨⟩
            dsimp only
            rw [Block.store_length hstore, hblock]
            exact hle

/-- **The loop computes `parse`**: it appends those objects, and faults
where they do not exist. -/
theorem setLoop_eq (P : Platform) (n : ℕ) : ∀ (c : Comprehension) (bs : List BYTE),
    bs.length = n → c.WellSized → (setLoop P c (some bs)).map vectorTlvs =
      (parse P (some bs)).map (c.vectorTlvs ++ ·) := by
  induction n using Nat.strongRecOn with
  | ind n ih =>
      intro c bs hn hc
      cases bs with
      | nil => simp [setLoop, parse]
      | cons b rest =>
          rw [setLoop_cons, parse_cons]
          cases newTlv (b &&& CTLV.tlvTagMask) with
          | none => rfl
          | some made =>
              cases made with
              | none => simp
              | some cls =>
                  simp only [bind_some]
                  cases hset : cls.set P (b :: rest) with
                  | none => rfl
                  | some cut =>
                      obtain ⟨o, pNext⟩ := cut
                      simp only [bind_some]
                      have happend := appendTlv_spec P hc o
                      cases hraw : o.tlv.getRawData P with
                      | none =>
                          rw [hraw] at happend
                          simp only [happend, bind_none, isSome_none,
                            Bool.false_eq_true, if_false, map_none]
                      | some raw =>
                          rw [hraw] at happend
                          obtain ⟨c', hc', hvector, hsized⟩ := happend
                          simp only [hc', bind_some, isSome_some, if_true]
                          cases pNext with
                          | none =>
                              simp only [setLoop, parse, map_some, hvector]
                          | some nx =>
                              have hlt := TlvClass.set_next_lt hset
                              rw [ih nx.length (by omega) c' nx rfl hsized, hvector]
                              cases parse P (some nx) with
                              | none => rfl
                              | some os =>
                                  simp only [map_some, List.append_assoc,
                                    List.cons_append, List.nil_append]

/-- What `Set` leaves in a new object's list. -/
theorem set_eq (P : Platform) (bs : List BYTE) :
    (set P bs).map vectorTlvs = parse P (some bs) := by
  rw [set, setLoop_eq P _ initialized bs rfl initialized_wellSized]
  cases parse P (some bs) with
  | none => rfl
  | some os => rfl

end Comprehension

end ExynosVendor.Ril
