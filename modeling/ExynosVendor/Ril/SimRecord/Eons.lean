import ExynosVendor.Ril.Util.IccUtil
import Mathlib.Data.List.GetD

/-!
# The operator's name from the SIM

EF_PNN lists names, and EF_OPL says which network goes by which of them:
a record of EF_OPL names a record of EF_PNN by its number. `PnnRecords`
keeps the records that have a name and counts those, so numbers shift
behind an empty record; `updateEons_eq_iff` is the exact condition under
which the name is the one the files say.
-/

namespace ExynosVendor.Ril

open List Option

/-- A name, by its bytes; empty where there is none. -/
abbrev Name := List BYTE

/-! ## EF_PNN -/

structure PnnRecord where
  /-- `mFullName`. -/
  fullName : Name
  /-- `mShortName`. -/
  shortName : Name
  /-- `mAddInfo`. -/
  addInfo : Name

def tagFullNameIei : BYTE := 0x43

def tagShortNameIei : BYTE := 0x45

def tagAddlInfo : BYTE := 0x80

/-- The name in a field, if the field is there. -/
def fieldName (garbage : ℕ → BYTE) : Option (List BYTE) → Option Name
  | none => some []
  | some data => networkNameToString garbage data

namespace PnnRecord

/-- The fields of a record: its first three objects, as far as they have
the tags of a full name, a short name and additional information. -/
def fields (record : List BYTE) : Option (List BYTE) × Option (List BYTE) × Option (List BYTE) :=
  let first := SimTlv.ofRecord record
  let second := first.nextObject
  let third := second.nextObject
  (first.dataOf tagFullNameIei, second.dataOf tagShortNameIei, third.dataOf tagAddlInfo)

/-- The constructor, on a record of EF_PNN. -/
def ofRecord (garbage : ℕ → ℕ → BYTE) (record : List BYTE) : Option PnnRecord := do
  let (full, short, info) := fields record
  let fullName ← fieldName (garbage 0) full
  let shortName ← fieldName (garbage 1) short
  let addInfo ← fieldName (garbage 2) info
  some ⟨fullName, shortName, addInfo⟩

end PnnRecord

/-- `PnnRecords`: the records that have a full name. -/
structure PnnRecords where
  /-- `mRecords`. -/
  records : List PnnRecord

namespace PnnRecords

/-- The loop of the constructor, from a record's index on. -/
def ofRecords (garbage : ℕ → ℕ → ℕ → BYTE) : ℕ → List (List BYTE) → Option (List PnnRecord)
  | _, [] => some []
  | i, record :: file => do
      let pnnRecord ← PnnRecord.ofRecord (garbage i) record
      let records ← ofRecords garbage (i + 1) file
      some (if pnnRecord.fullName = [] then records else pnnRecord :: records)

/-- The constructor, on the records of EF_PNN. -/
def ofFile (garbage : ℕ → ℕ → ℕ → BYTE) (file : List (List BYTE)) : Option PnnRecords :=
  (ofRecords garbage 0 file).map PnnRecords.mk

def getNameFromPnnRecord (p : PnnRecords) (recordNumber : ℕ) : Name :=
  if recordNumber < 1 ∨ p.records.length < recordNumber then []
  else (p.records[recordNumber - 1]?.map (·.fullName)).getD []

end PnnRecords

/-! ## EF_OPL -/

structure OplRecord where
  /-- `mPlmn`. -/
  plmn : List ℤ
  /-- `mLac1`. -/
  lac1 : ℕ
  /-- `mLac2`. -/
  lac2 : ℕ
  /-- `mPnnRecordNumber`. -/
  pnnRecordNumber : ℕ
  deriving DecidableEq

namespace OplRecord

/-- `getPlmn`: the digits, and zeros where there are none. -/
def getPlmn (record : List BYTE) : Option (List ℤ) :=
  (bcdPlmnToString record).map fun plmnCode =>
    (List.range maxPlmnLen).map fun i => (plmnCode[i]?.map hexCharToInt).getD 0

/-- The constructor, on a record of EF_OPL. -/
def ofRecord (record : List BYTE) : Option OplRecord :=
  (getPlmn record).map fun plmn =>
    ⟨plmn, bytesToInt record 3 2, bytesToInt record 5 2, bytesToInt record 7 1⟩

def isPlmnEmpty (r : OplRecord) : Bool :=
  r.plmn.all (· = 0)

end OplRecord

/-- `OplRecords`: the records that have a PLMN. -/
structure OplRecords where
  /-- `mRecords`. -/
  records : List OplRecord

namespace OplRecords

def wildCardDigit : ℤ := 0x0D

/-- The loop of the constructor. -/
def ofRecords : List (List BYTE) → Option (List OplRecord)
  | [] => some []
  | record :: file => do
      let oplRecord ← OplRecord.ofRecord record
      let records ← ofRecords file
      some (if oplRecord.isPlmnEmpty then records else oplRecord :: records)

/-- The constructor, on the records of EF_OPL. -/
def ofFile (file : List (List BYTE)) : Option OplRecords :=
  (ofRecords file).map OplRecords.mk

def matchPlmn (simPlmn bcchPlmn : List ℤ) : Bool :=
  (List.range maxPlmnLen).all fun i =>
    bcchPlmn.getD i 0 = simPlmn.getD i 0 || simPlmn.getD i 0 = wildCardDigit

/-- The digits of an operator, and zeros where there are none. -/
def bcchPlmn (operatorPlmn : List Char) : List ℤ :=
  (List.range maxPlmnLen).map fun i => (operatorPlmn[i]?.map fun ch => (ch.toNat : ℤ) - 48).getD 0

def getMatchingPnnRecord (o : OplRecords) (operatorPlmn : List Char) (lac : ℤ) (useLac : Bool) :
    ℕ :=
  if operatorPlmn.length < 1 then 0
  else if useLac ∧ lac = -1 then 0
  else if operatorPlmn.length ≠ 5 ∧ operatorPlmn.length ≠ 6 then 0
  else
    let found := o.records.find? fun r => matchPlmn r.plmn (bcchPlmn operatorPlmn) &&
      (! useLac || ((r.lac1 : ℤ) ≤ lac && lac ≤ r.lac2))
    (found.map (·.pnnRecordNumber)).getD 0

end OplRecords

/-! ## The resolver -/

inductive EonsControlState where
  | efIniting
  | efPresent
  | efAbsent
  deriving DecidableEq

inductive EonsState where
  | eonsIniting
  | eonsDisabled
  | eonsPnnPresent
  | eonsPnnAndOplPresent
  deriving DecidableEq

/-- `EonsResolver`. A missing object has no records. -/
structure EonsResolver where
  /-- `mPnnDataState`. -/
  pnnDataState : EonsControlState
  /-- `mOplDataState`. -/
  oplDataState : EonsControlState
  /-- `mpOplRecords`. -/
  oplRecords : OplRecords
  /-- `mpPnnRecords`. -/
  pnnRecords : PnnRecords

namespace EonsResolver

def reset : EonsResolver := ⟨.efIniting, .efIniting, ⟨[]⟩, ⟨[]⟩⟩

def resetOplData (s : EonsResolver) : EonsResolver :=
  { s with oplDataState := .efAbsent, oplRecords := ⟨[]⟩ }

def setOplData (s : EonsResolver) (file : List (List BYTE)) : Option EonsResolver :=
  (OplRecords.ofFile file).map fun o =>
    { s with oplRecords := o
             oplDataState := if 0 < o.records.length then .efPresent else s.oplDataState }

def resetPnnData (s : EonsResolver) : EonsResolver :=
  { s with pnnDataState := .efAbsent, pnnRecords := ⟨[]⟩ }

def setPnnData (s : EonsResolver) (garbage : ℕ → ℕ → ℕ → BYTE) (file : List (List BYTE)) :
    Option EonsResolver :=
  (PnnRecords.ofFile garbage file).map fun p =>
    { s with pnnRecords := p
             pnnDataState := if 0 < p.records.length then .efPresent else s.pnnDataState }

/-- The resolver when both files have been read, as `OnSimFileInfo` hands
them over. -/
def load (garbage : ℕ → ℕ → ℕ → BYTE) (pnn opl : List (List BYTE)) : Option EonsResolver := do
  let s ← reset.resetPnnData.setPnnData garbage pnn
  s.resetOplData.setOplData opl

def getEonsState (s : EonsResolver) : EonsState :=
  if s.pnnDataState = .efIniting ∨ s.oplDataState = .efIniting then .eonsIniting
  else if s.pnnDataState = .efPresent then
    if s.oplDataState = .efPresent then .eonsPnnAndOplPresent else .eonsPnnPresent
  else .eonsDisabled

def updateEonsFromOplAndPnn (s : EonsResolver) (regOperator : List Char) (lac : ℤ) : Name :=
  s.pnnRecords.getNameFromPnnRecord (s.oplRecords.getMatchingPnnRecord regOperator lac true)

def updateEonsIfHplmn (s : EonsResolver) (regOperator simOperator : List Char) : Name :=
  if regOperator.length < 1 then []
  else if 0 < simOperator.length ∧ simOperator = regOperator then
    s.pnnRecords.getNameFromPnnRecord 1
  else []

def updateEons (s : EonsResolver) (regOperator : List Char) (lac : ℤ) (simOperator : List Char) :
    Name :=
  match s.getEonsState with
  | .eonsPnnAndOplPresent => s.updateEonsFromOplAndPnn regOperator lac
  | .eonsPnnPresent => s.updateEonsIfHplmn regOperator simOperator
  | _ => []

end EonsResolver

/-! ## What the files say -/

/-- The full name of a record of EF_PNN. -/
def recordName (garbage : ℕ → ℕ → BYTE) (record : List BYTE) : Name :=
  (fieldName (garbage 0) (PnnRecord.fields record).1).getD []

/-- The full names of records of EF_PNN, from a record's index on. -/
def namesFrom (garbage : ℕ → ℕ → ℕ → BYTE) : ℕ → List (List BYTE) → List Name
  | _, [] => []
  | i, record :: file => recordName (garbage i) record :: namesFrom garbage (i + 1) file

/-- The full names of EF_PNN, record by record. -/
def namesOf (garbage : ℕ → ℕ → ℕ → BYTE) (pnn : List (List BYTE)) : List Name :=
  namesFrom garbage 0 pnn

/-- The records of EF_OPL. -/
def oplOf (opl : List (List BYTE)) : List OplRecord :=
  opl.filterMap OplRecord.ofRecord

/-- A record of EF_OPL is about a network and a location area. One without
a PLMN is about none. -/
def OplRecord.Covers (r : OplRecord) (plmn : List Char) (lac : ℤ) : Prop :=
  (plmn.length = 5 ∨ plmn.length = 6) ∧ r.isPlmnEmpty = false ∧
    OplRecords.matchPlmn r.plmn (OplRecords.bcchPlmn plmn) ∧ (r.lac1 : ℤ) ≤ lac ∧ lac ≤ r.lac2

instance (r : OplRecord) (plmn : List Char) (lac : ℤ) : Decidable (r.Covers plmn lac) :=
  inferInstanceAs (Decidable (_ ∧ _))

/-- The number the first such record names, or zero. -/
def identifier (opl : List (List BYTE)) (plmn : List Char) (lac : ℤ) : ℕ :=
  (((oplOf opl).find? (·.Covers plmn lac)).map (·.pnnRecordNumber)).getD 0

/-- **The name the files give a network**: that of the record of EF_PNN
whose number is named; none, if no record is or it has none. -/
def eonsName (names : List Name) (number : ℕ) : Name :=
  if number = 0 then [] else names.getD (number - 1) []

/-- **A number is not shifted**: no record up to it is empty; or it leads
to no name, and there are too few others to lead to one; or it leads to
another record by the same name. -/
def Unshifted (names : List Name) (number : ℕ) : Prop :=
  number = 0 ∨ (∀ j < number, names.getD j [] ≠ []) ∨
    (names.getD (number - 1) [] = [] ∧ names.countP (· ≠ []) < number) ∨
    ∃ j, number ≤ j ∧ names.getD j [] ≠ [] ∧ names.getD j [] = names.getD (number - 1) [] ∧
      (names.take j).countP (· ≠ []) = number - 1

/-- The names of a record stay inside the decoder's array. -/
def PnnRecord.Readable (record : List BYTE) : Prop :=
  (∀ data ∈ (fields record).1, NameFits data) ∧ (∀ data ∈ (fields record).2.1, NameFits data) ∧
    ∀ data ∈ (fields record).2.2, NameFits data

/-- **The files can be read**: all names stay inside, and all records of
EF_OPL have the bytes of a PLMN. -/
def Readable (pnn opl : List (List BYTE)) : Prop :=
  (∀ record ∈ pnn, PnnRecord.Readable record) ∧ ∀ record ∈ opl, 3 ≤ record.length

/-- Both files are present: they have a record each that is not empty. -/
def BothPresent (garbage : ℕ → ℕ → ℕ → BYTE) (pnn opl : List (List BYTE)) : Prop :=
  (∃ name ∈ namesOf garbage pnn, name ≠ []) ∧ ∃ r ∈ oplOf opl, r.isPlmnEmpty = false

/-! ## A list with items left out -/

/-- **Where the items left come from**: one stands behind as many as were
kept before it. -/
theorem getElem?_filter_iff {α : Type*} {p : α → Bool} {l : List α} {m : ℕ} {x : α} :
    (l.filter p)[m]? = some x ↔
      ∃ j, l[j]? = some x ∧ p x = true ∧ (l.take j).countP p = m := by
  induction l generalizing m with
  | nil =>
    constructor
    · intro h
      simp at h
    · rintro ⟨j, h, -⟩
      simp at h
  | cons a l ih =>
    cases ha : p a with
    | true =>
      rw [filter_cons_of_pos ha]
      cases m with
      | zero =>
        constructor
        · intro h
          rw [getElem?_cons_zero, some.injEq] at h
          subst h
          exact ⟨0, rfl, ha, rfl⟩
        · rintro ⟨j, hj, -, hcount⟩
          cases j with
          | zero => exact hj
          | succ j =>
            rw [take_succ_cons, countP_cons_of_pos ha] at hcount
            cases hcount
      | succ m =>
        rw [getElem?_cons_succ, ih]
        constructor
        · rintro ⟨j, hj, hx, hcount⟩
          refine ⟨j + 1, hj, hx, ?_⟩
          rw [take_succ_cons, countP_cons_of_pos ha, hcount]
        · rintro ⟨j, hj, hx, hcount⟩
          cases j with
          | zero => cases hcount
          | succ j =>
            rw [take_succ_cons, countP_cons_of_pos ha] at hcount
            exact ⟨j, hj, hx, Nat.succ.inj hcount⟩
    | false =>
      have ha' : ¬ p a = true := by rw [ha]; exact Bool.false_ne_true
      rw [filter_cons_of_neg ha', ih]
      constructor
      · rintro ⟨j, hj, hx, hcount⟩
        refine ⟨j + 1, hj, hx, ?_⟩
        rw [take_succ_cons, countP_cons_of_neg ha', hcount]
      · rintro ⟨j, hj, hx, hcount⟩
        cases j with
        | zero =>
          rw [getElem?_cons_zero, some.injEq] at hj
          subst hj
          exact absurd hx ha'
        | succ j =>
          rw [take_succ_cons, countP_cons_of_neg ha'] at hcount
          exact ⟨j, hj, hx, hcount⟩

/-- Names that are all there are all kept. -/
theorem countP_take_names {names : List Name} {n : ℕ} (h : ∀ j < n, names.getD j [] ≠ []) :
    (names.take n).countP (· ≠ []) = n := by
  have hlen : n ≤ names.length := by
    by_contra hlt
    exact h names.length (by omega) (getD_eq_default _ _ (Nat.le_refl _))
  have hall : ∀ x ∈ names.take n, decide (x ≠ []) = true := by
    intro x hx
    obtain ⟨j, hj, rfl⟩ := mem_iff_getElem.mp hx
    rw [length_take] at hj
    have := h j (by omega)
    rw [getD_eq_getElem _ _ (by omega)] at this
    simpa using this
  rw [countP_eq_length.mpr hall, length_take, Nat.min_eq_left hlen]

/-- **Numbers among the names that are left** are the files' own exactly
when they are not shifted. -/
theorem filtered_eq_iff (names : List Name) (number : ℕ) :
    (if number = 0 then [] else (names.filter (· ≠ [])).getD (number - 1) []) =
      eonsName names number ↔ Unshifted names number := by
  unfold eonsName Unshifted
  rcases Nat.eq_zero_or_pos number with rfl | hpos
  · exact ⟨fun _ => Or.inl rfl, fun _ => rfl⟩
  obtain ⟨k, rfl⟩ : ∃ k, number = k + 1 := ⟨number - 1, by omega⟩
  rw [if_neg (Nat.succ_ne_zero k), if_neg (Nat.succ_ne_zero k), Nat.add_sub_cancel]
  have hfilter : (names.filter (· ≠ [])).length = names.countP (· ≠ []) :=
    (countP_eq_length_filter).symm
  have hle (j : ℕ) : (names.take j).countP (· ≠ []) ≤ names.countP (· ≠ []) :=
    (take_sublist j names).countP_le
  have hkept (j : ℕ) (hne : names.getD j [] ≠ []) :
      (names.filter (· ≠ []))[(names.take j).countP (· ≠ [])]? = some (names.getD j []) := by
    refine getElem?_filter_iff.mpr ⟨j, ?_, by simpa using hne, rfl⟩
    have hj : j < names.length := by
      by_contra hlt
      exact hne (getD_eq_default _ _ (by omega))
    rw [getD_eq_getElem _ _ hj, getElem?_eq_getElem hj]
  cases hk : (names.filter (· ≠ []))[k]? with
  | none =>
    have hshort := List.getElem?_eq_none_iff.mp hk
    rw [getD_eq_getElem?_getD, hk, getD_none]
    constructor
    · intro h
      exact Or.inr (Or.inr (Or.inl ⟨h.symm, by omega⟩))
    · rintro (h | h | ⟨h, -⟩ | ⟨j, -, hne, -, hcount⟩)
      · omega
      · have := hle (k + 1)
        rw [countP_take_names h] at this
        omega
      · exact h.symm
      · have := hkept j hne
        rw [hcount, hk] at this
        cases this
  | some x =>
    obtain ⟨j, hj, hx, hcount⟩ := getElem?_filter_iff.mp hk
    have hjx : names.getD j [] = x := by
      rw [getD_eq_getElem?_getD, hj]
      rfl
    have hx' : x ≠ [] := by simpa using hx
    rw [getD_eq_getElem?_getD, hk, getD_some]
    constructor
    · intro h
      have hkj : k ≤ j := by
        have := countP_le_length (p := fun x : Name => decide (x ≠ [])) (l := names.take j)
        rw [hcount, length_take] at this
        omega
      rcases Nat.eq_or_lt_of_le hkj with rfl | hlt
      · -- the record itself: none before it is empty
        refine Or.inr (Or.inl fun i hi => ?_)
        rcases Nat.eq_or_lt_of_le (Nat.le_of_lt_succ hi) with rfl | hik
        · rw [hjx]
          exact hx'
        · have hlen : (names.take k).length = k := by
            rw [length_take, Nat.min_eq_left]
            exact Nat.le_of_lt (List.getElem?_eq_some_iff.mp hj).1
          have hkn := (List.getElem?_eq_some_iff.mp hj).1
          have hmem : names.getD i [] ∈ names.take k := by
            rw [getD_eq_getElem _ _ (by omega)]
            exact mem_take_iff_getElem.mpr ⟨i, by omega, rfl⟩
          simpa using countP_eq_length.mp (hcount.trans hlen.symm) _ hmem
      · refine Or.inr (Or.inr (Or.inr ⟨j, hlt, ?_, ?_, hcount⟩))
        · rw [hjx]
          exact hx'
        · rw [hjx]
          exact h
    · rintro (h | h | ⟨-, h⟩ | ⟨i, -, hne, heq, hcount'⟩)
      · omega
      · -- none is empty: the record itself is the one kept
        have hcountk := countP_take_names fun j hj => h j (Nat.lt_succ_of_lt hj)
        have := hkept k (h k (Nat.lt_succ_self k))
        rw [hcountk, hk, some.injEq] at this
        exact this
      · have := (List.getElem?_eq_some_iff.mp hk).1
        omega
      · have := hkept i hne
        rw [hcount', hk, some.injEq] at this
        rw [this]
        exact heq

/-! ## What is loaded -/

theorem fieldName_isSome_iff (garbage : ℕ → BYTE) (field : Option (List BYTE)) :
    (fieldName garbage field).isSome ↔ ∀ data ∈ field, NameFits data := by
  cases field with
  | none => exact ⟨fun _ _ h => (nomatch h), fun _ => rfl⟩
  | some data =>
    rw [fieldName, networkNameToString_isSome_iff]
    constructor
    · rintro h _ ⟨⟩
      exact h
    · intro h
      exact h data rfl

/-- **A record is loaded exactly when its names fit**, and has then the
file's full name. -/
theorem PnnRecord.ofRecord_spec (garbage : ℕ → ℕ → BYTE) (record : List BYTE) :
    (Readable record → ∃ r, ofRecord garbage record = some r ∧
        r.fullName = recordName garbage record) ∧
      (¬ Readable record → ofRecord garbage record = none) := by
  unfold Readable
  rw [← fieldName_isSome_iff (garbage 0), ← fieldName_isSome_iff (garbage 1),
    ← fieldName_isSome_iff (garbage 2)]
  unfold ofRecord recordName
  dsimp only
  cases h0 : fieldName (garbage 0) (fields record).1 with
  | none => exact ⟨fun h => (nomatch h.1), fun _ => rfl⟩
  | some fullName =>
    cases h1 : fieldName (garbage 1) (fields record).2.1 with
    | none => exact ⟨fun h => (nomatch h.2.1), fun _ => rfl⟩
    | some shortName =>
      cases h2 : fieldName (garbage 2) (fields record).2.2 with
      | none => exact ⟨fun h => (nomatch h.2.2), fun _ => rfl⟩
      | some addInfo => exact ⟨fun _ => ⟨_, rfl, rfl⟩, fun h => absurd ⟨rfl, rfl, rfl⟩ h⟩

/-- **The records of EF_PNN that are kept** are those with a name. -/
theorem PnnRecords.ofRecords_spec (garbage : ℕ → ℕ → ℕ → BYTE) (i : ℕ) (file : List (List BYTE)) :
    ((∀ record ∈ file, PnnRecord.Readable record) → ∃ records,
        ofRecords garbage i file = some records ∧
          records.map (·.fullName) = (namesFrom garbage i file).filter (· ≠ [])) ∧
      (¬ (∀ record ∈ file, PnnRecord.Readable record) → ofRecords garbage i file = none) := by
  induction file generalizing i with
  | nil => exact ⟨fun _ => ⟨[], rfl, rfl⟩, fun h => absurd (fun _ hr => nomatch hr) h⟩
  | cons record file ih =>
    obtain ⟨hread, hfault⟩ := PnnRecord.ofRecord_spec (garbage i) record
    obtain ⟨ihread, ihfault⟩ := ih (i + 1)
    rw [ofRecords, bind_eq_bind]
    by_cases hrecord : PnnRecord.Readable record
    · obtain ⟨r, hr, hname⟩ := hread hrecord
      rw [hr, bind_some, bind_eq_bind]
      constructor
      · intro hall
        obtain ⟨records, hrecords, hnames⟩ :=
          ihread fun record' h => hall record' (mem_cons_of_mem _ h)
        rw [hrecords, bind_some, namesFrom, ← hname]
        refine ⟨_, rfl, ?_⟩
        by_cases hempty : r.fullName = []
        · rw [if_pos hempty, filter_cons_of_neg (by simpa using hempty), hnames]
        · rw [if_neg hempty, filter_cons_of_pos (by simpa using hempty), map_cons, hnames]
      · intro hnot
        have hnot' : ¬ ∀ record ∈ file, PnnRecord.Readable record := by
          intro hall
          refine hnot fun record' h => ?_
          rcases mem_cons.mp h with rfl | h
          · exact hrecord
          · exact hall record' h
        rw [ihfault hnot', bind_none]
    · constructor
      · intro hall
        exact absurd (hall record mem_cons_self) hrecord
      · intro _
        rw [hfault hrecord, bind_none]

theorem OplRecord.ofRecord_isSome_iff (record : List BYTE) :
    (ofRecord record).isSome ↔ 3 ≤ record.length := by
  unfold ofRecord getPlmn
  rw [isSome_map, isSome_map]
  match record with
  | [] => simp [bcdPlmnToString]
  | [_] => simp [bcdPlmnToString]
  | [_, _] => simp [bcdPlmnToString]
  | _ :: _ :: _ :: _ => simp [bcdPlmnToString]

/-- **The records of EF_OPL that are kept** are those with a PLMN. -/
theorem OplRecords.ofRecords_spec (file : List (List BYTE)) :
    ((∀ record ∈ file, 3 ≤ record.length) →
        ofRecords file = some ((oplOf file).filter (! ·.isPlmnEmpty))) ∧
      (¬ (∀ record ∈ file, 3 ≤ record.length) → ofRecords file = none) := by
  induction file with
  | nil => exact ⟨fun _ => rfl, fun h => absurd (fun _ hr => nomatch hr) h⟩
  | cons record file ih =>
    obtain ⟨ihread, ihfault⟩ := ih
    have hsome := OplRecord.ofRecord_isSome_iff record
    rw [ofRecords, bind_eq_bind]
    unfold oplOf at ihread ⊢
    cases hr : OplRecord.ofRecord record with
    | none =>
      rw [hr] at hsome
      constructor
      · intro hall
        cases hsome.mpr (hall record mem_cons_self)
      · intro _
        rfl
    | some r =>
      rw [hr] at hsome
      have hrecord := hsome.mp rfl
      rw [bind_some, bind_eq_bind]
      constructor
      · intro hall
        rw [ihread fun record' h => hall record' (mem_cons_of_mem _ h), bind_some,
          filterMap_cons_some hr]
        cases hempty : r.isPlmnEmpty with
        | true =>
          rw [filter_cons_of_neg (by rw [hempty]; decide)]
          rfl
        | false =>
          rw [filter_cons_of_pos (by rw [hempty]; decide)]
          rfl
      · intro hnot
        have hnot' : ¬ ∀ record ∈ file, 3 ≤ record.length := by
          intro hall
          refine hnot fun record' h => ?_
          rcases mem_cons.mp h with rfl | h
          · exact hrecord
          · exact hall record' h
        rw [ihfault hnot', bind_none]

/-- **The number the code looks up** is the one the files give. -/
theorem getMatchingPnnRecord_eq (opl : List (List BYTE)) (plmn : List Char) (lac : ℤ) :
    OplRecords.getMatchingPnnRecord ⟨(oplOf opl).filter (! ·.isPlmnEmpty)⟩ plmn lac true =
      identifier opl plmn lac := by
  have hcovers (r : OplRecord) : decide (r.Covers plmn lac) =
      (decide (plmn.length = 5 ∨ plmn.length = 6) && (! r.isPlmnEmpty &&
        (OplRecords.matchPlmn r.plmn (OplRecords.bcchPlmn plmn) &&
          ((r.lac1 : ℤ) ≤ lac && lac ≤ r.lac2)))) := by
    rw [Bool.eq_iff_iff, decide_eq_true_iff]
    simp [OplRecord.Covers]
  -- without a network or an area there is no record
  have hnone (h : ¬ (plmn.length = 5 ∨ plmn.length = 6) ∨ lac = -1) :
      identifier opl plmn lac = 0 := by
    have hfind : (oplOf opl).find? (·.Covers plmn lac) = none := by
      rw [find?_eq_none]
      intro r _ hr
      obtain ⟨hlen, -, -, hlac, -⟩ : r.Covers plmn lac := by simpa using hr
      rcases h with h | h
      · exact h hlen
      · omega
    rw [identifier, hfind]
    rfl
  unfold OplRecords.getMatchingPnnRecord
  split_ifs with h1 h2 h3
  · exact (hnone (Or.inl (by omega))).symm
  · exact (hnone (Or.inr h2.2)).symm
  · exact (hnone (Or.inl (by omega))).symm
  · have hlen : plmn.length = 5 ∨ plmn.length = 6 := by omega
    unfold identifier
    rw [find?_filter]
    refine congrArg (fun p => (((oplOf opl).find? p).map (·.pnnRecordNumber)).getD 0) ?_
    funext r
    rw [hcovers r]
    simp [hlen]

theorem EonsResolver.updateEons_of_present {s : EonsResolver} (hp : s.pnnDataState = .efPresent)
    (ho : s.oplDataState = .efPresent) (regOperator : List Char) (lac : ℤ)
    (simOperator : List Char) :
    s.updateEons regOperator lac simOperator = s.updateEonsFromOplAndPnn regOperator lac := by
  unfold updateEons getEonsState
  rw [hp, ho]
  rfl

theorem PnnRecords.getNameFromPnnRecord_eq (records : List PnnRecord) (recordNumber : ℕ) :
    getNameFromPnnRecord ⟨records⟩ recordNumber =
      if recordNumber = 0 then [] else
        (records.map (·.fullName)).getD (recordNumber - 1) [] := by
  unfold getNameFromPnnRecord
  dsimp only
  by_cases hzero : recordNumber = 0
  · rw [if_pos (Or.inl (by omega)), if_pos hzero]
  · rw [if_neg hzero, getD_eq_getElem?_getD, getElem?_map]
    by_cases hlong : records.length < recordNumber
    · rw [if_pos (Or.inr hlong), getElem?_eq_none (by omega)]
      rfl
    · rw [if_neg (by omega)]

/-- **When the name is the one the files give.** With both files present,
that is exactly when they can be read and the number is not shifted. -/
theorem updateEons_eq_iff (garbage : ℕ → ℕ → ℕ → BYTE) (pnn opl : List (List BYTE))
    (h : BothPresent garbage pnn opl) (regOperator : List Char) (lac : ℤ)
    (simOperator : List Char) :
    (EonsResolver.load garbage pnn opl).map (·.updateEons regOperator lac simOperator) =
        some (eonsName (namesOf garbage pnn) (identifier opl regOperator lac)) ↔
      Readable pnn opl ∧ Unshifted (namesOf garbage pnn) (identifier opl regOperator lac) := by
  obtain ⟨⟨name, hname, hne⟩, r, hr, hplmn⟩ := h
  obtain ⟨hpnn, hpnnFault⟩ := PnnRecords.ofRecords_spec garbage 0 pnn
  obtain ⟨hopl, hoplFault⟩ := OplRecords.ofRecords_spec opl
  rw [← filtered_eq_iff]
  unfold EonsResolver.load EonsResolver.setPnnData PnnRecords.ofFile
  by_cases hp : ∀ record ∈ pnn, PnnRecord.Readable record
  · obtain ⟨records, hrecords, hnames⟩ := hpnn hp
    rw [hrecords, map_some, map_some, bind_eq_bind, bind_some]
    unfold EonsResolver.setOplData OplRecords.ofFile
    by_cases ho : ∀ record ∈ opl, 3 ≤ record.length
    · rw [hopl ho, map_some, map_some, map_some, some.injEq]
      have hpnnPos : 0 < records.length := by
        have hkept : name ∈ (namesFrom garbage 0 pnn).filter (· ≠ []) :=
          mem_filter.mpr ⟨hname, by simpa using hne⟩
        rw [← hnames] at hkept
        obtain ⟨record, hrecord, -⟩ := List.mem_map.mp hkept
        exact length_pos_of_mem hrecord
      have hoplPos : 0 < ((oplOf opl).filter (! ·.isPlmnEmpty)).length :=
        length_pos_of_mem (mem_filter.mpr ⟨hr, by rw [hplmn]; rfl⟩)
      have hboth := EonsResolver.updateEons_of_present (s :=
        { EonsResolver.reset with
          pnnDataState := if 0 < records.length then .efPresent else .efAbsent
          oplDataState := if 0 < ((oplOf opl).filter (! ·.isPlmnEmpty)).length then .efPresent
            else .efAbsent
          pnnRecords := ⟨records⟩
          oplRecords := ⟨(oplOf opl).filter (! ·.isPlmnEmpty)⟩ })
        (if_pos hpnnPos) (if_pos hoplPos) regOperator lac simOperator
      have hname' : PnnRecords.getNameFromPnnRecord ⟨records⟩ (identifier opl regOperator lac) =
          if identifier opl regOperator lac = 0 then [] else
            ((namesOf garbage pnn).filter (· ≠ [])).getD (identifier opl regOperator lac - 1) [] := by
        rw [PnnRecords.getNameFromPnnRecord_eq, hnames]
        rfl
      rw [← hname', ← getMatchingPnnRecord_eq]
      constructor
      · intro heq
        exact ⟨⟨hp, ho⟩, hboth.symm.trans heq⟩
      · rintro ⟨-, heq⟩
        exact hboth.trans heq
    · rw [hoplFault ho]
      constructor
      · intro hs
        cases hs
      · rintro ⟨⟨-, h⟩, -⟩
        exact absurd h ho
  · rw [hpnnFault hp]
    constructor
    · intro hs
      cases hs
    · rintro ⟨⟨h, -⟩, -⟩
      exact absurd h hp

/-- A record of EF_OPL: the network 450 05, in all areas, goes by the
second name. -/
def secondName : List BYTE := [0x54, 0xF0, 0x50, 0x00, 0x00, 0xFF, 0xFE, 0x02]

/-- A record of EF_PNN: a name of one septet. -/
def oneSeptet (septet : BYTE) : List BYTE := [0x43, 0x02, 0x81, septet]

/-- No record is empty, and the second name is found. -/
theorem updateEons_secondName :
    (EonsResolver.load (fun _ _ _ => 0) [oneSeptet 0x41, oneSeptet 0x42] [secondName]).map
        (·.updateEons ['4', '5', '0', '0', '5'] 1 []) = some [0x42] := by
  have hpresent : BothPresent (fun _ _ _ => 0) [oneSeptet 0x41, oneSeptet 0x42] [secondName] := by
    unfold BothPresent
    decide +kernel
  have h := updateEons_eq_iff _ _ _ hpresent ['4', '5', '0', '0', '5'] 1 []
  refine h.mpr ⟨?_, ?_⟩
  · unfold Readable PnnRecord.Readable
    decide +kernel
  · refine Or.inr (Or.inl ?_)
    decide +kernel

/-- The first record is empty. -/
def shiftedPnn : List (List BYTE) := [[0xFF, 0xFF, 0xFF, 0xFF], oneSeptet 0x41, oneSeptet 0x42]

/-- **An empty record shifts the numbers behind it**: the name of the
third record is returned for the second. -/
theorem updateEons_shiftedPnn :
    BothPresent (fun _ _ _ => 0) shiftedPnn [secondName] ∧
      (EonsResolver.load (fun _ _ _ => 0) shiftedPnn [secondName]).map
        (·.updateEons ['4', '5', '0', '0', '5'] 1 []) = some [0x42] ∧
      eonsName (namesOf (fun _ _ _ => 0) shiftedPnn)
        (identifier [secondName] ['4', '5', '0', '0', '5'] 1) = [0x41] := by
  unfold BothPresent
  decide +kernel

end ExynosVendor.Ril
