import ExynosVendor.Common.Run
import ExynosVendor.Ril.Stk.Readable

/-!
# The raw image of a comprehension

`GetRawData` of a `Comprehension` is a cache: `AppendTlv` keeps the
concatenated encodings of the list beside the list. The image is extended
correctly, and it is given up wrongly: `Initialize` frees the block and
keeps its length, so an object with an image is set only once. The
objects of the list have a cache of their own, `m_pRawData`, which
`AppendTlv` frees behind their back, some have a second pointer to their
value, which their destructors free as well, and `CTLV::Clone` makes
objects whose constructor has initialised nothing.

`imaged_iff` is the exact condition, over every history of operations,
under which the image is what the list says after each of them.
-/

namespace ExynosVendor.Ril

open List Option

/-- What a pointer that a destructor frees points to. -/
inductive RawPointer where
  /-- `NULL`. -/
  | null
  /-- A block that has been freed. -/
  | freed
  /-- Nobody has set it. -/
  | indeterminate
  deriving DecidableEq

/-- An object is encoded into a block that `GetRawData` keeps. -/
def TlvObject.KeepsRawData (o : TlvObject) : Prop :=
  ∃ value ∈ o.tlv.pValue, 2 ≤ value.length ∧ ¬ (value.length = 3 ∧ value[0]? = some 0x7F)

instance (o : TlvObject) : Decidable o.KeepsRawData :=
  inferInstanceAs (Decidable (∃ value ∈ o.tlv.pValue, _))

/-- `m_pRawData` of an object when `AppendTlv` has encoded it and freed the
encoding. -/
def TlvObject.appendedRawData (o : TlvObject) (raw : RawPointer) : RawPointer :=
  if o.KeepsRawData then .freed else raw

/-- `m_ptAddress`, `m_ptSubaddress` or `m_ptRemoteEntityAddress` as a destructor finds it behind
`delete []m_pValue`: `Set(const BYTE *, int)` has it point to the same block. -/
def TlvObject.classPointer (o : TlvObject) : RawPointer :=
  match o.fields with
  | .address (some _) | .subaddress (some _) | .remoteEntityAddress (some _) => .freed
  | _ => .null

/-- `Comprehension` with what the destructors of its list free. -/
structure HeldComprehension extends Comprehension where
  /-- `m_pRawData` of each of `m_vectorTlvs`, and its class's own pointer. -/
  pointers : List RawPointer

namespace HeldComprehension

/-- A new object. -/
def initialized : HeldComprehension where
  toComprehension := Comprehension.initialized
  pointers := []

def appendTlv (P : Platform) (c : HeldComprehension) (pTlv : TlvObject) (raw own : RawPointer) :
    Option HeldComprehension := do
  let d ← c.toComprehension.appendTlv P pTlv
  some ⟨d, c.pointers ++ [pTlv.appendedRawData raw, own]⟩

/-- `Comprehension::Initialize`. The destructor of each object frees its
pointers; `m_nLength` is left. -/
def initializeFields (c : HeldComprehension) : Option HeldComprehension :=
  if ∀ raw ∈ c.pointers, raw = .null then some ⟨⟨c.nLength, none, []⟩, []⟩ else none

/-- `Comprehension::Set(const BYTE *, int)`. -/
def setBytes (P : Platform) (c : HeldComprehension) (pData : List BYTE) :
    Option HeldComprehension := do
  let c ← c.initializeFields
  let d ← Comprehension.setLoop P c.toComprehension (some pData)
  some ⟨d, d.vectorTlvs.flatMap fun o => [o.appendedRawData .null, o.classPointer]⟩

section Clones

-- `cleared` is whether the memory of a new `CTLV` is zero
variable (P : Platform) (cleared : Bool)

/-- `CTLV::Clone`. The constructor sets the tag and the value of an object
that has one, and nothing else; an object that nothing has set is read by
`AppendTlv`. -/
def cloneTlv (o : TlvObject) : Option (TlvObject × RawPointer) :=
  let raw := if cleared then RawPointer.null else RawPointer.indeterminate
  if 0 < o.tlv.nLength then
    some (⟨CTLV.initialized.setValue o.tlv.cTag (o.tlv.pValue.getD []), .plain⟩, raw)
  else if cleared then some (⟨CTLV.initialized, .plain⟩, raw)
  else none

/-- The loop body of `Comprehension::Set(vector<CTLV *>)`: an object is
cloned and appended. -/
def appendClone (c : HeldComprehension) (each : TlvObject) : Option HeldComprehension := do
  let (pTlv, raw) ← cloneTlv cleared each
  c.appendTlv P pTlv raw .null

/-- `Comprehension::Set(vector<CTLV *>)`. -/
def setVector (c : HeldComprehension) (vectorTlvs : List TlvObject) :
    Option HeldComprehension := do
  let c ← c.initializeFields
  vectorTlvs.foldlM (appendClone P cleared) c

def clone (c : HeldComprehension) : Option HeldComprehension :=
  initialized.setVector P cleared c.vectorTlvs

/-- What is done to an object. A history goes on with the clone of an
object, which has blocks of its own. -/
inductive Operation where
  | setBytes (pData : List BYTE)
  | setVector (vectorTlvs : List TlvObject)
  | clone
  /-- An object that `Set(const BYTE *, int)` has made, or one that another setter has, with a
  block of its own in the class's pointer. -/
  | appendTlv (pTlv : TlvObject) (parsed : Bool)

/-- An operation performed. -/
def perform (c : HeldComprehension) : Operation → Option HeldComprehension
  | .setBytes pData => c.setBytes P pData
  | .setVector vectorTlvs => c.setVector P cleared vectorTlvs
  | .clone => c.clone P cleared
  | .appendTlv pTlv parsed =>
      c.appendTlv P pTlv .null (if parsed then pTlv.classPointer else .null)

/-- One operation after another; nothing follows a fault. -/
def next (c : HeldComprehension) (op : Operation) : HeldComprehension :=
  (c.perform P cleared op).getD c

end Clones

end HeldComprehension

namespace Comprehension

/-! ## The image -/

/-- What `GetRawData` and `GetRawDataLength` give a caller, if that many
bytes are there. -/
def image (c : Comprehension) : Option (List BYTE) :=
  match c.pData with
  | none => if c.nLength = 0 then some [] else none
  | some block => Block.load block 0 c.nLength

/-- The raw encoding of an object, nothing where it has none. -/
def encoding (P : Platform) (o : TlvObject) : List BYTE :=
  match o.tlv.getRawData P with
  | some (some raw) => raw.take o.tlv.getRawDataLength
  | _ => []

/-- **The image is right**: the encodings of the list, in order. -/
def Imaged (P : Platform) (c : Comprehension) : Prop :=
  c.image = some (c.vectorTlvs.flatMap (encoding P))

variable {c : Comprehension} {P : Platform} {os : List TlvObject}

theorem image_length {bytes : List BYTE} (h : c.image = some bytes) :
    bytes.length = c.nLength := by
  unfold image at h
  cases hdata : c.pData with
  | none =>
    rw [hdata] at h
    dsimp only at h
    split_ifs at h with hzero
    cases h
    exact hzero.symm
  | some block =>
    rw [hdata] at h
    exact Block.length_load h

/-- The new block starts with the old image. -/
theorem growBuffer_front {n : ℕ} {block bytes : List BYTE} (h : growBuffer P c n = some block)
    (himage : c.image = some bytes) :
    ∃ base, Block.store base 0 bytes = some block := by
  unfold growBuffer at h
  unfold image at himage
  cases hdata : c.pData with
  | none =>
    rw [hdata] at h himage
    dsimp only at himage
    split_ifs at himage with hzero
    cases himage
    refine ⟨block, ?_⟩
    rw [Block.store_zero (Nat.zero_le _)]
    rfl
  | some old =>
    rw [hdata] at h himage
    obtain ⟨base, -, h⟩ := bind_eq_some_iff.mp h
    obtain ⟨loaded, hload, h⟩ := bind_eq_some_iff.mp h
    dsimp only at himage
    rw [himage, some.injEq] at hload
    subst hload
    exact ⟨base, h⟩

/-- **What an operation appends**: the objects and their encodings, to the
list and to the length and, if there was one, to the image. -/
structure Extends (P : Platform) (c d : Comprehension) (appended : List TlvObject) : Prop where
  vector : d.vectorTlvs = c.vectorTlvs ++ appended
  length : d.nLength = c.nLength + (appended.flatMap (encoding P)).length
  image : ∀ bytes, c.image = some bytes →
    d.image = some (bytes ++ appended.flatMap (encoding P))
  encoded : ∀ o ∈ appended, (o.tlv.getRawData P).isSome

theorem Extends.refl (P : Platform) (c : Comprehension) : Extends P c c [] where
  vector := (append_nil _).symm
  length := rfl
  image bytes h := by
    rw [flatMap_nil, append_nil]
    exact h
  encoded o ho := absurd ho not_mem_nil

variable {d : Comprehension}

theorem Extends.trans {e : Comprehension} {os' : List TlvObject} (h : Extends P c d os)
    (h' : Extends P d e os') : Extends P c e (os ++ os') where
  vector := by rw [h'.vector, h.vector, append_assoc]
  length := by
    rw [h'.length, h.length, flatMap_append, length_append]
    omega
  image bytes hbytes := by
    rw [h'.image _ (h.image bytes hbytes), flatMap_append, append_assoc]
  encoded o ho := by
    rcases mem_append.mp ho with ho | ho
    · exact h.encoded o ho
    · exact h'.encoded o ho

/-- **`AppendTlv` extends the image** by the encoding of its object. -/
theorem appendTlv_extends {o : TlvObject} (h : c.appendTlv P o = some d) :
    Extends P c d [o] := by
  obtain ⟨pTlvData, hraw, h⟩ := bind_eq_some_iff.mp h
  obtain ⟨block, hgrow, h⟩ := bind_eq_some_iff.mp h
  have hencoded : ∀ o' ∈ [o], (o'.tlv.getRawData P).isSome := by
    intro o' ho'
    rw [mem_singleton.mp ho', hraw]
    rfl
  cases pTlvData with
  | none =>
    cases h
    have hnone : encoding P o = [] := by
      unfold encoding
      rw [hraw]
    refine ⟨rfl, ?_, ?_, hencoded⟩
    · rw [flatMap_singleton, hnone]
      rfl
    · intro bytes hbytes
      obtain ⟨base, hstore⟩ := growBuffer_front hgrow hbytes
      rw [flatMap_singleton, hnone, append_nil, ← Block.load_store hstore,
        image_length hbytes]
      rfl
  | some tlvData =>
    obtain ⟨bytes', hload, h⟩ := bind_eq_some_iff.mp h
    obtain ⟨block', hstore', h⟩ := bind_eq_some_iff.mp h
    cases h
    have hsome : encoding P o = bytes' := by
      unfold encoding
      rw [hraw]
      unfold Block.load at hload
      split_ifs at hload
      exact some.inj hload
    refine ⟨rfl, ?_, ?_, hencoded⟩
    · rw [flatMap_singleton, hsome, Block.length_load hload]
    · intro bytes hbytes
      obtain ⟨base, hstore⟩ := growBuffer_front hgrow hbytes
      -- the old image and the new bytes are one store
      have hboth := Block.store_bind_store base 0 bytes bytes'
      rw [hstore, bind_some, Nat.zero_add, image_length hbytes, hstore'] at hboth
      have hloaded := Block.load_store hboth.symm
      rw [flatMap_singleton, hsome, ← hloaded, length_append, image_length hbytes,
        Block.length_load hload]
      rfl

/-- And so does the loop of `Set`, by all it appends. -/
theorem setLoop_extends (n : ℕ) : ∀ {c d : Comprehension} {bs : List BYTE},
    bs.length = n → setLoop P c (some bs) = some d → ∃ os, Extends P c d os := by
  induction n using Nat.strongRecOn with
  | ind n ih =>
    intro c d bs hn h
    cases bs with
    | nil =>
      rw [setLoop] at h
      cases h
      exact ⟨[], Extends.refl P c⟩
    | cons b rest =>
      rw [setLoop_cons] at h
      obtain ⟨made, -, h⟩ := bind_eq_some_iff.mp h
      cases made with
      | none =>
        cases h
        exact ⟨[], Extends.refl P c⟩
      | some cls =>
        obtain ⟨⟨o, pNext⟩, hset, h⟩ := bind_eq_some_iff.mp h
        obtain ⟨c', happend, h⟩ := bind_eq_some_iff.mp h
        have hfirst := appendTlv_extends happend
        cases pNext with
        | none =>
          rw [setLoop] at h
          cases h
          exact ⟨[o], hfirst⟩
        | some nx =>
          have hlt := TlvClass.set_next_lt hset
          obtain ⟨os, hrest⟩ := ih nx.length (by omega) rfl h
          exact ⟨[o] ++ os, hfirst.trans hrest⟩

theorem Extends.imaged (h : Extends P c d os) (hc : c.Imaged P) :
    d.Imaged P := by
  unfold Imaged
  rw [h.image _ hc, h.vector, flatMap_append]

/-- **A length that is left over is never made good.** -/
theorem Extends.not_imaged (h : Extends P c d os) (hvector : c.vectorTlvs = [])
    (hlength : c.nLength ≠ 0) :
    ¬ d.Imaged P := by
  intro himage
  have hcount := image_length himage
  rw [h.vector, hvector, nil_append, h.length] at hcount
  omega

end Comprehension

namespace HeldComprehension

open Comprehension (Extends Imaged Harmless encoding appendTlv_extends setLoop_extends)

/-- **What an operation has to do**: it meets no fault and leaves the image
right. -/
def Lawful (P : Platform) (cleared : Bool) (c : HeldComprehension) (op : Operation) : Prop :=
  ∃ d, c.perform P cleared op = some d ∧ d.toComprehension.Imaged P

/-- An object is encoded inside its block. -/
def EncodesInside (P : Platform) (o : TlvObject) : Prop :=
  ∀ value ∈ o.tlv.pValue, CTLV.RawFits P value

/-- A clone of an object is one that can be read. -/
def Clonable (cleared : Bool) (o : TlvObject) : Prop :=
  0 < o.tlv.nLength ∨ cleared = true

/-- **An object that may be set again**: it has no image, and no object of
its list frees a block twice. -/
def Reusable (c : HeldComprehension) : Prop :=
  c.nLength = 0 ∧ ∀ raw ∈ c.pointers, raw = .null

/-- **What an operation has to meet**, in the object it finds. -/
def Meets (P : Platform) (cleared : Bool) (c : HeldComprehension) : Operation → Prop
  | .setBytes pData => c.Reusable ∧ Harmless P pData
  | .setVector vectorTlvs =>
      c.Reusable ∧ ∀ o ∈ vectorTlvs, Clonable cleared o ∧ EncodesInside P o
  | .clone => ∀ o ∈ c.vectorTlvs, Clonable cleared o
  | .appendTlv pTlv _ => EncodesInside P pTlv

/-- **An object in order**: its image is right, and its list can be encoded
again. -/
structure InOrder (P : Platform) (c : HeldComprehension) : Prop where
  imaged : c.toComprehension.Imaged P
  encoded : ∀ o ∈ c.vectorTlvs, (o.tlv.getRawData P).isSome

theorem inOrder_initialized (P : Platform) : initialized.InOrder P where
  imaged := rfl
  encoded _ ho := absurd ho not_mem_nil

variable {P : Platform} {c : HeldComprehension} {cleared : Bool} {os : List TlvObject}

/-- An object's value, if it has one, is as long as its length says. -/
theorem encodesInside_iff (o : TlvObject) :
    EncodesInside P o ↔ (o.tlv.getRawData P).isSome := by
  unfold EncodesInside
  cases hvalue : o.tlv.pValue with
  | none =>
    refine iff_of_true (fun value hv => absurd hv (by simp)) ?_
    unfold CTLV.getRawData
    rw [hvalue]
    rfl
  | some value =>
    rw [CTLV.eq_ofValue hvalue, CTLV.getRawData_isSome_iff]
    exact ⟨fun h => h value rfl, fun h value' hv => by rwa [← some.inj hv]⟩

theorem InOrder.wellSized (hc : c.InOrder P) :
    c.toComprehension.WellSized := by
  intro block hblock
  have himage := hc.imaged
  unfold Imaged Comprehension.image at himage
  rw [mem_def.mp hblock] at himage
  dsimp only at himage
  unfold Block.load at himage
  split_ifs at himage with hle
  omega

/-- `Initialize` leaves the length behind. -/
theorem initializeFields_eq (c : HeldComprehension) :
    c.initializeFields =
      if ∀ raw ∈ c.pointers, raw = .null then some ⟨⟨c.nLength, none, []⟩, []⟩ else none := rfl

/-- `AppendTlv` on an object whose block is large enough. -/
theorem appendTlv_isSome_iff (P : Platform) (hc : c.toComprehension.WellSized) (o : TlvObject)
    (raw own : RawPointer) :
    (c.appendTlv P o raw own).isSome ↔ (o.tlv.getRawData P).isSome := by
  have happend := Comprehension.appendTlv_spec P hc o
  unfold appendTlv
  cases hraw : o.tlv.getRawData P with
  | none =>
    rw [hraw] at happend
    rw [happend]
    exact Iff.rfl
  | some encoded =>
    rw [hraw] at happend
    obtain ⟨d, hd, -⟩ := happend
    rw [hd]
    exact iff_of_true rfl rfl

theorem appendTlv_lawful_iff (cleared : Bool) (hc : c.InOrder P) (o : TlvObject) (parsed : Bool) :
    c.Lawful P cleared (.appendTlv o parsed) ↔ c.Meets P cleared (.appendTlv o parsed) := by
  have hsome := appendTlv_isSome_iff P hc.wellSized o .null
    (if parsed then o.classPointer else .null)
  unfold Meets
  dsimp only
  rw [encodesInside_iff, ← hsome]
  constructor
  · rintro ⟨d, hd, -⟩
    exact isSome_iff_exists.mpr ⟨d, hd⟩
  · intro h
    obtain ⟨d, hd⟩ := isSome_iff_exists.mp h
    obtain ⟨e, he, hd'⟩ := bind_eq_some_iff.mp hd
    cases hd'
    exact ⟨_, hd, (appendTlv_extends he).imaged hc.imaged⟩

/-- The emptied object that `Set` starts from. -/
theorem emptied_imaged_iff (nLength : ℕ) :
    (⟨nLength, none, []⟩ : Comprehension).Imaged P ↔ nLength = 0 := by
  unfold Imaged Comprehension.image
  dsimp only
  rw [flatMap_nil]
  split_ifs with h
  · exact iff_of_true rfl h
  · exact iff_of_false (by simp) h

theorem setBytes_lawful_iff (P : Platform) (cleared : Bool) (c : HeldComprehension)
    (pData : List BYTE) :
    c.Lawful P cleared (.setBytes pData) ↔ c.Meets P cleared (.setBytes pData) := by
  have hsized : (⟨c.nLength, none, []⟩ : Comprehension).WellSized := fun block hb => by cases hb
  have hloop := Comprehension.setLoop_eq P pData.length ⟨c.nLength, none, []⟩ pData rfl hsized
  constructor
  · rintro ⟨d, hd, himaged⟩
    obtain ⟨c', hinit, hd⟩ := bind_eq_some_iff.mp hd
    obtain ⟨e, he, hd⟩ := bind_eq_some_iff.mp hd
    cases hd
    rw [initializeFields_eq] at hinit
    split_ifs at hinit with hnull
    cases hinit
    obtain ⟨os, hext⟩ := setLoop_extends _ rfl he
    refine ⟨⟨?_, hnull⟩, ?_⟩
    · by_contra hlength
      exact hext.not_imaged rfl hlength himaged
    · rw [he] at hloop
      obtain ⟨objects, hparse, -⟩ := map_eq_some_iff.mp hloop.symm
      exact Comprehension.harmless_of_parse _ pData objects rfl hparse
  · rintro ⟨⟨hlength, hnull⟩, hharmless⟩
    obtain ⟨objects, hparse⟩ := Comprehension.parse_of_harmless hharmless
    rw [hparse, map_some] at hloop
    obtain ⟨e, he, -⟩ := map_eq_some_iff.mp hloop
    obtain ⟨os, hext⟩ := setLoop_extends _ rfl he
    refine ⟨⟨e, e.vectorTlvs.flatMap fun o => [o.appendedRawData .null, o.classPointer]⟩, ?_, ?_⟩
    · simp only [perform, setBytes, initializeFields_eq, if_pos hnull, bind_eq_bind, bind_some, he]
    · exact hext.imaged ((emptied_imaged_iff c.nLength).mpr hlength)

/-! ## Clones -/

/-- A clone has the encoding of its object. -/
theorem cloneTlv_encodes {o t : TlvObject} {raw : RawPointer}
    (h : cloneTlv cleared o = some (t, raw)) :
    (t.tlv.getRawData P).isSome ↔ EncodesInside P o := by
  have hcount := o.tlv.nLength_eq
  unfold cloneTlv at h
  by_cases hlength : 0 < o.tlv.nLength
  · rw [if_pos hlength] at h
    cases h
    cases hvalue : o.tlv.pValue with
    | none =>
      rw [hvalue] at hcount
      rw [hcount] at hlength
      exact absurd hlength (Nat.lt_irrefl 0)
    -- the clone has the value under the same tag
    | some value =>
      rw [hvalue] at hcount
      have hne : value ≠ [] := by
        rintro rfl
        rw [hcount] at hlength
        exact absurd hlength (Nat.lt_irrefl 0)
      rw [encodesInside_iff, CTLV.eq_ofValue hvalue, getD_some,
        CTLV.setValue_of_ne_nil hne, CTLV.ofValue_cTag]
  · rw [if_neg hlength] at h
    cases cleared with
    | false => cases h
    | true =>
      cases h
      refine iff_of_true rfl ?_
      intro value hv
      rw [mem_def.mp hv] at hcount
      have hsize : value.length = o.tlv.nLength := hcount.symm
      exact Or.inl (by omega)

theorem cloneTlv_isSome_iff (cleared : Bool) (o : TlvObject) :
    (cloneTlv cleared o).isSome ↔ Clonable cleared o := by
  unfold cloneTlv Clonable
  by_cases hlength : 0 < o.tlv.nLength
  · rw [if_pos hlength]
    exact iff_of_true rfl (Or.inl hlength)
  · rw [if_neg hlength]
    cases cleared with
    | true => exact iff_of_true rfl (Or.inr rfl)
    | false => exact iff_of_false (by decide) (by simp [hlength])

theorem appendClone_isSome_iff (P : Platform) (cleared : Bool) (hc : c.toComprehension.WellSized)
    (o : TlvObject) :
    (c.appendClone P cleared o).isSome ↔ Clonable cleared o ∧ EncodesInside P o := by
  rw [← cloneTlv_isSome_iff]
  unfold appendClone
  cases hclone : cloneTlv cleared o with
  | none => exact iff_of_false (by simp) (by simp)
  | some cloned =>
    obtain ⟨t, raw⟩ := cloned
    rw [bind_eq_bind, bind_some, ← cloneTlv_encodes hclone]
    dsimp only
    rw [appendTlv_isSome_iff P hc]
    simp

variable {d : HeldComprehension}

theorem appendClone_extends {o : TlvObject} (h : c.appendClone P cleared o = some d) :
    ∃ os, Extends P c.toComprehension d.toComprehension os := by
  obtain ⟨⟨t, raw⟩, -, h⟩ := bind_eq_some_iff.mp h
  obtain ⟨e, he, h⟩ := bind_eq_some_iff.mp h
  cases h
  exact ⟨[t], appendTlv_extends he⟩

/-- The new block has room for what it counts. -/
theorem appendClone_wellSized {o : TlvObject} (hc : c.toComprehension.WellSized)
    (h : c.appendClone P cleared o = some d) :
    d.toComprehension.WellSized := by
  obtain ⟨⟨t, raw⟩, -, h⟩ := bind_eq_some_iff.mp h
  obtain ⟨e, he, h⟩ := bind_eq_some_iff.mp h
  cases h
  have hspec := Comprehension.appendTlv_spec P hc t
  cases hraw : t.tlv.getRawData P with
  | none =>
    rw [hraw] at hspec
    rw [hspec] at he
    cases he
  | some encoded =>
    rw [hraw] at hspec
    obtain ⟨e', he', -, hsized⟩ := hspec
    rw [he] at he'
    cases he'
    exact hsized

theorem appendClones_extends :
    ∀ {c d : HeldComprehension}, os.foldlM (appendClone P cleared) c = some d →
      ∃ appended, Extends P c.toComprehension d.toComprehension appended := by
  induction os with
  | nil =>
    intro c d h
    cases h
    exact ⟨[], Extends.refl P _⟩
  | cons o os ih =>
    intro c d h
    rw [foldlM_cons] at h
    obtain ⟨e, he, h⟩ := bind_eq_some_iff.mp h
    obtain ⟨first, hfirst⟩ := appendClone_extends he
    obtain ⟨rest, hrest⟩ := ih h
    exact ⟨first ++ rest, hfirst.trans hrest⟩

theorem appendClones_isSome_iff (P : Platform) (cleared : Bool) (os : List TlvObject) :
    ∀ {c : HeldComprehension}, c.toComprehension.WellSized →
      ((os.foldlM (appendClone P cleared) c).isSome ↔
        ∀ o ∈ os, Clonable cleared o ∧ EncodesInside P o) := by
  induction os with
  | nil =>
    intro c _
    exact iff_of_true rfl fun o ho => absurd ho not_mem_nil
  | cons o os ih =>
    intro c hc
    rw [foldlM_cons, forall_mem_cons, ← appendClone_isSome_iff P cleared hc]
    cases happend : c.appendClone P cleared o with
    | none => exact iff_of_false (by simp) (by simp)
    | some d =>
      rw [bind_eq_bind, bind_some, ih (appendClone_wellSized hc happend)]
      simp

theorem setVector_lawful_iff (P : Platform) (cleared : Bool) (c : HeldComprehension)
    (os : List TlvObject) :
    c.Lawful P cleared (.setVector os) ↔ c.Meets P cleared (.setVector os) := by
  have hsized : (⟨c.nLength, none, []⟩ : Comprehension).WellSized := fun block hb => by cases hb
  have hclones := appendClones_isSome_iff P cleared os
    (c := ⟨⟨c.nLength, none, []⟩, []⟩) hsized
  unfold Meets
  dsimp only
  rw [← hclones]
  constructor
  · rintro ⟨d, hd, himaged⟩
    obtain ⟨c', hinit, hd⟩ := bind_eq_some_iff.mp hd
    rw [initializeFields_eq] at hinit
    split_ifs at hinit with hnull
    cases hinit
    obtain ⟨appended, hext⟩ := appendClones_extends hd
    refine ⟨⟨?_, hnull⟩, isSome_iff_exists.mpr ⟨d, hd⟩⟩
    by_contra hlength
    exact hext.not_imaged rfl hlength himaged
  · rintro ⟨⟨hlength, hnull⟩, hsome⟩
    obtain ⟨d, hd⟩ := isSome_iff_exists.mp hsome
    obtain ⟨appended, hext⟩ := appendClones_extends hd
    refine ⟨d, ?_, hext.imaged ((emptied_imaged_iff c.nLength).mpr hlength)⟩
    simp only [perform, setVector, initializeFields_eq, if_pos hnull, bind_eq_bind, bind_some]
    exact hd

/-- A clone is set from the list of an object in order. -/
theorem clone_lawful_iff (cleared : Bool) (hc : c.InOrder P) :
    c.Lawful P cleared .clone ↔ c.Meets P cleared .clone := by
  have hset := setVector_lawful_iff P cleared initialized c.vectorTlvs
  refine Iff.trans hset ?_
  unfold Meets
  constructor
  · rintro ⟨-, h⟩ o ho
    exact (h o ho).1
  · intro h
    refine ⟨⟨rfl, fun raw hraw => absurd hraw not_mem_nil⟩, fun o ho => ⟨h o ho, ?_⟩⟩
    exact (encodesInside_iff o).mpr (hc.encoded o ho)

/-! ## Histories -/

theorem lawful_iff (cleared : Bool) (hc : c.InOrder P) (op : Operation) :
    c.Lawful P cleared op ↔ c.Meets P cleared op := by
  cases op with
  | setBytes pData => exact setBytes_lawful_iff P cleared c pData
  | setVector vectorTlvs => exact setVector_lawful_iff P cleared c vectorTlvs
  | clone => exact clone_lawful_iff cleared hc
  | appendTlv pTlv parsed => exact appendTlv_lawful_iff cleared hc pTlv parsed

theorem Extends.encoded_all {c d : Comprehension} (h : Extends P c d os)
    (hc : ∀ o ∈ c.vectorTlvs, (o.tlv.getRawData P).isSome) :
    ∀ o ∈ d.vectorTlvs, (o.tlv.getRawData P).isSome := by
  intro o ho
  rw [h.vector] at ho
  rcases mem_append.mp ho with ho | ho
  · exact hc o ho
  · exact h.encoded o ho

theorem setVector_encoded (h : c.setVector P cleared os = some d) :
    ∀ o ∈ d.vectorTlvs, (o.tlv.getRawData P).isSome := by
  obtain ⟨c', hinit, hd⟩ := bind_eq_some_iff.mp h
  rw [initializeFields_eq] at hinit
  split_ifs at hinit with hnull
  cases hinit
  obtain ⟨appended, hext⟩ := appendClones_extends hd
  exact Extends.encoded_all hext fun o ho => absurd ho not_mem_nil

/-- **A lawful operation leaves the object in order.** -/
theorem Lawful.inOrder {op : Operation} (hc : c.InOrder P) (h : c.Lawful P cleared op) :
    (c.next P cleared op).InOrder P := by
  obtain ⟨d, hd, himaged⟩ := h
  have hnext : c.next P cleared op = d := by
    unfold next
    rw [hd]
    rfl
  rw [hnext]
  refine ⟨himaged, ?_⟩
  cases op with
  | setBytes pData =>
    obtain ⟨c', hinit, hd⟩ := bind_eq_some_iff.mp hd
    obtain ⟨e, he, hd⟩ := bind_eq_some_iff.mp hd
    cases hd
    rw [initializeFields_eq] at hinit
    split_ifs at hinit with hnull
    cases hinit
    obtain ⟨os, hext⟩ := setLoop_extends _ rfl he
    exact Extends.encoded_all hext fun o ho => absurd ho not_mem_nil
  | setVector vectorTlvs => exact setVector_encoded hd
  | clone => exact setVector_encoded hd
  | appendTlv pTlv parsed =>
    obtain ⟨e, he, hd⟩ := bind_eq_some_iff.mp hd
    cases hd
    exact Extends.encoded_all (appendTlv_extends he) hc.encoded

/-- **The image is right** after each operation of a history. -/
def ImagedThroughout (P : Platform) (cleared : Bool) (operations : List Operation) : Prop :=
  Run.Throughout (next P cleared) (Lawful P cleared) initialized operations

/-- **Exactly when** every operation meets its condition, in the object that the operations before
it left. -/
theorem imaged_iff (P : Platform) (cleared : Bool) (operations : List Operation) :
    ImagedThroughout P cleared operations ↔
      Run.Throughout (next P cleared) (Meets P cleared) initialized operations :=
  Run.Throughout.iff_of_invariant (P := InOrder P) (fun _ _ hc h => h.inOrder hc)
    (fun _ op hc => lawful_iff cleared hc op) (inOrder_initialized P)

/-- **A length outlives its image**: an object with one byte of value is appended, and the list is
set to nothing. Three bytes are still counted. -/
theorem not_imaged_set_again :
    ¬ ImagedThroughout (Platform.strict (fun _ => 0) (fun _ => 0)) true
      [.appendTlv ⟨CTLV.ofValue 0x83 [0x00], .plain⟩ true, .setBytes []] := by
  rintro ⟨happend, hagain, -⟩
  have hset := (lawful_iff true (happend.inOrder (inOrder_initialized _)) _).mp hagain
  exact absurd hset.1.1 (by decide +kernel)

end HeldComprehension

end ExynosVendor.Ril
