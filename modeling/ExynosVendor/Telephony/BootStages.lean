import ExynosVendor.Common.LittleEndian
import Mathlib.Data.List.Range

/-!
# The stages of a boot

`prepare_boot_args` and `build_std_dload_control` of `cpboot_v2/boot_shannon310.c`. The
binary of the modem begins with a table of contents of 16 elements, whose first is about
the table itself. The number in it says which elements are stages, and the controls of the
stages have room for 13.
-/

namespace ExynosVendor.CpBoot

def MAX_IMG_NAME_LEN : ℕ := 12

def MAX_TOC_INDEX : ℕ := 16

def MAX_TOC_ELEMENT_SIZE : ℕ := 32

def MAX_DLOAD_STAGE : ℕ := 13

def CP_MEMORY_MASK : ℕ := 0x3FFFFFFF

/-! ## The code -/

/-- The switches of the build. -/
structure Build where
  protocolSit : Bool
  secCpVerifyingAll : Bool

def Build.legacyMaxDlStage (b : Build) : ℕ := if b.protocolSit then 4 else 3

/-- The modems of `m_list` that are booted this way. -/
inductive ModemComp where
  | ss310
  | modap
  | modapSit
  deriving DecidableEq

namespace ModemComp

def tocStage : ModemComp → ℕ := fun _ => 0

def bootStage : ModemComp → ℕ := fun _ => 1

def mainStage : ModemComp → ℕ := fun _ => 2

/-- Whether `path_nv` is not empty, -/
def pathNv (cpn : ModemComp) : Bool := cpn ≠ .modap

/-- and `path_nv_prot`. -/
def pathNvProt (cpn : ModemComp) : Bool := cpn = .modapSit

end ModemComp

/-- `enum cp_boot_mode`. -/
inductive BootMode where
  | normal
  | dump
  | reInit
  | reqCpRamLogging
  | manual
  deriving DecidableEq

/-- An element of the table. -/
structure StdTocElement where
  name : List (BitVec 8)
  bOffset : ℕ
  mOffset : ℕ
  size : ℕ
  crc : ℕ
  tocCount : ℕ

def u32At (bytes : List (BitVec 8)) (i : ℕ) : ℕ := LittleEndian.decode ((bytes.drop i).take 4)

theorem u32At_lt (bytes : List (BitVec 8)) (i : ℕ) : u32At bytes i < 2 ^ 32 := by
  have hlt := LittleEndian.decode_lt ((bytes.drop i).take 4)
  have hle : ((bytes.drop i).take 4).length ≤ 4 := List.length_take_le _ _
  exact hlt.trans_le (Nat.pow_le_pow_right (n := 256) (by decide) hle)

/-- The element at an index of `toc`. -/
def tocElement (bytes : List (BitVec 8)) (i : ℕ) : StdTocElement :=
  let e := bytes.drop (MAX_TOC_ELEMENT_SIZE * i)
  { name := e.take MAX_IMG_NAME_LEN
    bOffset := u32At e 12
    mOffset := u32At e 16
    size := u32At e 20
    crc := u32At e 24
    tocCount := u32At e 28 }

/-- `strcmp` with a name finds no difference. -/
def StdTocElement.named (e : StdTocElement) (name : List Char) : Bool :=
  (name.map (fun c : Char => BitVec.ofNat 8 c.toNat) ++ [0]).isPrefixOf e.name

def StdTocElement.isToc (e : StdTocElement) : Bool := e.named ['T', 'O', 'C']

def StdTocElement.isNv (e : StdTocElement) : Bool :=
  e.named ['N', 'V'] || e.named ['N', 'V', '_', 'N', 'O', 'R', 'M']

/-- `toc`, which was zero, once so many bytes of the file were read into it. -/
def tocBytes (file : List (BitVec 8)) (n : ℕ) : List (BitVec 8) :=
  let got := file.take (min n (MAX_TOC_ELEMENT_SIZE * MAX_TOC_INDEX))
  got ++ List.replicate (MAX_TOC_ELEMENT_SIZE * MAX_TOC_INDEX - got.length) 0

/-- The files of a boot. A descriptor of -1 is of none. -/
inductive Fd where
  | closed
  | bin
  | nv
  | nvProt
  deriving DecidableEq

structure StdDloadControl where
  stage : ℕ
  start : ℤ
  download : ℤ
  validate : ℤ
  finish : ℤ
  bFd : Fd
  bOffset : ℕ
  mOffset : ℕ
  bSize : ℕ
  crc : ℕ
  dlOnce : Bool

/-- What `memset` leaves of a control. Its descriptor is no file of the boot. -/
def StdDloadControl.zero : StdDloadControl := ⟨0, 0, 0, 0, 0, .closed, 0, 0, 0, 0, false⟩

/-- The control of a stage, with the descriptors of the NV files. -/
def dloadControl (toc : ℕ → StdTocElement) (nvFd nvProtFd : Fd) (i : ℕ) : StdDloadControl where
  stage := i
  start := 0
  download := 0
  validate := 0
  finish := 0
  bFd :=
    if (toc i).named ['N', 'V'] then nvFd
    else if (toc i).named ['N', 'V', '_', 'N', 'O', 'R', 'M'] then nvFd
    else if (toc i).named ['N', 'V', '_', 'P', 'R', 'O', 'T'] then nvProtFd
    else .bin
  bOffset := (toc i).bOffset
  mOffset := (toc i).mOffset &&& CP_MEMORY_MASK
  bSize := (toc i).size
  crc := (toc i).crc
  dlOnce := (toc i).named ['V', 'S', 'S']

/-- What the stage counter of a loop runs through, where `num_stages + 1` may wrap. -/
def stages (startStages numStages : ℕ) : List ℕ :=
  List.range' startStages ((numStages + 1) % 2 ^ 32 - startStages)

/-- `build_std_dload_control`, or nothing where it leaves an array. -/
def buildStdDloadControl (toc : ℕ → StdTocElement) (nvFd nvProtFd : Fd) :
    List ℕ → (ℕ → StdDloadControl) → Option (ℕ → StdDloadControl)
  | [], dlCtrl => some dlCtrl
  | i :: rest, dlCtrl =>
    if i < MAX_DLOAD_STAGE ∧ i < MAX_TOC_INDEX then
      buildStdDloadControl toc nvFd nvProtFd rest
        (Function.update dlCtrl i (dloadControl toc nvFd nvProtFd i))
    else none

/-- The loop of `prepare_boot_args` over the table, with `nv_size`. -/
def findNvSize (toc : ℕ → StdTocElement) : List ℕ → ℕ → Option ℕ
  | [], nvSize => some nvSize
  | i :: rest, nvSize =>
    if i < MAX_TOC_INDEX then findNvSize toc rest (if (toc i).isNv then (toc i).size else nvSize)
    else none

/-- `start_stages`, -/
def startStages (b : Build) (cpn : ModemComp) (toc : ℕ → StdTocElement) : ℕ :=
  if (toc 0).tocCount = 1 then cpn.bootStage
  else if b.secCpVerifyingAll ∧ (toc 0).mOffset ≠ 0 then cpn.tocStage
  else cpn.bootStage

/-- and `num_stages`. -/
def numStages (b : Build) (cpn : ModemComp) (mode : BootMode) (toc : ℕ → StdTocElement) : ℕ :=
  if mode = .dump then cpn.bootStage
  else if cpn.pathNv = false then cpn.mainStage
  else if (toc 0).tocCount = 1 then b.legacyMaxDlStage
  else ((toc 0).tocCount + 2 ^ 32 - 1) % 2 ^ 32

/-- How a file is opened that is made where there is none. -/
inductive Opened where
  | opened
  | failed
  | missing (created openedThen : Bool)

def Opened.ok : Opened → Bool
  | .opened => true
  | .failed => false
  | .missing created openedThen => created && openedThen

/-- What the system answers while the arguments are prepared: whether the device and the
binary can be opened, how much of the table `read` would give, and how the NV files are
opened. -/
structure PrepareIo where
  device : Bool
  bin : Bool
  read : Option ℕ
  nv : Opened
  nvProt : Opened

structure StdBootArgs where
  startStages : ℕ
  numStages : ℕ
  dlCtrl : ℕ → StdDloadControl

/-- Whether the NV file is opened, -/
def opensNv (cpn : ModemComp) (mode : BootMode) : Bool := mode = .normal && cpn.pathNv

/-- and the protected one. -/
def opensNvProt (b : Build) (cpn : ModemComp) (mode : BootMode) : Bool :=
  b.protocolSit && (mode = .normal && cpn.pathNvProt)

def nvFd (cpn : ModemComp) (mode : BootMode) : Fd := if opensNv cpn mode then .nv else .closed

def nvProtFd (b : Build) (cpn : ModemComp) (mode : BootMode) : Fd :=
  if opensNvProt b cpn mode then .nvProt else .closed

/-- How `prepare_boot_args` ends. -/
inductive Prepared where
  | outside
  | null
  | args (stdArgs : StdBootArgs)

def prepareBootArgs (b : Build) (cpn : ModemComp) (mode : BootMode) (io : PrepareIo)
    (file : List (BitVec 8)) : Prepared :=
  if io.device = false then .null
  else if io.bin = false then .null
  else
    match io.read with
    | none => .null
    | some n =>
      let toc := tocElement (tocBytes file n)
      if (toc 0).isToc = false then .null
      else if MAX_TOC_INDEX < (toc 0).tocCount then .null
      else
        let start := startStages b cpn toc
        let num := numStages b cpn mode toc
        match findNvSize toc (stages start num) 0 with
        | none => .outside
        | some nvSize =>
          if mode ≠ .dump ∧ nvSize = 0 ∧ cpn.pathNv then .null
          else if opensNv cpn mode ∧ io.nv.ok = false then .null
          else if opensNvProt b cpn mode ∧ io.nvProt.ok = false then .null
          else
            match buildStdDloadControl toc (nvFd cpn mode) (nvProtFd b cpn mode)
                (stages start num) fun _ => .zero with
            | none => .outside
            | some dlCtrl => .args ⟨start, num, dlCtrl⟩

/-! ## When they are prepared -/

/-- The last NV element among the stages. -/
def nvStage (toc : ℕ → StdTocElement) (l : List ℕ) : Option ℕ :=
  (l.filter fun i => (toc i).isNv).getLast?

/-- **The checks of `prepare_boot_args` are passed**, with this table. -/
structure Passes (b : Build) (cpn : ModemComp) (mode : BootMode) (io : PrepareIo)
    (file : List (BitVec 8)) (toc : ℕ → StdTocElement) : Prop where
  device : io.device = true
  bin : io.bin = true
  read : ∃ n, io.read = some n ∧ toc = tocElement (tocBytes file n)
  name : (toc 0).isToc = true
  count : (toc 0).tocCount ≤ MAX_TOC_INDEX
  nvSize : mode ≠ .dump → cpn.pathNv = true →
    ∃ i ∈ nvStage toc (stages (startStages b cpn toc) (numStages b cpn mode toc)),
      (toc i).size ≠ 0
  nv : opensNv cpn mode = true → io.nv.ok = true
  nvProt : opensNvProt b cpn mode = true → io.nvProt.ok = true

/-- **The stages have room**, unless a modem with NV counts more than 13 elements. -/
def StagesFit (cpn : ModemComp) (mode : BootMode) (toc : ℕ → StdTocElement) : Prop :=
  mode = .dump ∨ cpn.pathNv = false ∨ (toc 0).tocCount ≤ MAX_DLOAD_STAGE

/-- What is prepared then. -/
def preparedArgs (b : Build) (cpn : ModemComp) (mode : BootMode) (toc : ℕ → StdTocElement) :
    StdBootArgs where
  startStages := startStages b cpn toc
  numStages := numStages b cpn mode toc
  dlCtrl := fun i =>
    if i ∈ stages (startStages b cpn toc) (numStages b cpn mode toc) then
      dloadControl toc (nvFd cpn mode) (nvProtFd b cpn mode) i
    else .zero

section Stages

variable {b : Build} {cpn : ModemComp} {mode : BootMode} {io : PrepareIo}
  {file : List (BitVec 8)} {toc : ℕ → StdTocElement} {l : List ℕ}

/-- There is one table. -/
theorem Passes.unique {toc' : ℕ → StdTocElement} (h : Passes b cpn mode io file toc)
    (h' : Passes b cpn mode io file toc') : toc = toc' := by
  obtain ⟨n, hread, rfl⟩ := h.read
  obtain ⟨n', hread', rfl⟩ := h'.read
  rw [Option.some.inj (hread.symm.trans hread')]

theorem mem_stages {s n i : ℕ} : i ∈ stages s n ↔ s ≤ i ∧ i < (n + 1) % 2 ^ 32 := by
  rw [stages, List.mem_range'_1]
  omega

theorem startStages_le (b : Build) (cpn : ModemComp) (toc : ℕ → StdTocElement) :
    startStages b cpn toc ≤ 1 := by
  unfold startStages ModemComp.bootStage ModemComp.tocStage
  split_ifs <;> omega

/-- The number of stages, of a table of at most 16 elements. -/
theorem numStages_cases (b : Build) (cpn : ModemComp) (mode : BootMode)
    (hcount : (toc 0).tocCount ≤ MAX_TOC_INDEX) :
    (StagesFit cpn mode toc ∧ (numStages b cpn mode toc + 1) % 2 ^ 32 ≤ MAX_DLOAD_STAGE) ∨
      (¬ StagesFit cpn mode toc ∧ numStages b cpn mode toc + 1 = (toc 0).tocCount) := by
  unfold MAX_TOC_INDEX at hcount
  unfold StagesFit numStages Build.legacyMaxDlStage ModemComp.bootStage ModemComp.mainStage
    MAX_DLOAD_STAGE
  split_ifs with hmode hnv hlegacy hsit
  · exact Or.inl ⟨Or.inl hmode, by omega⟩
  · exact Or.inl ⟨Or.inr (Or.inl hnv), by omega⟩
  · exact Or.inl ⟨Or.inr (Or.inr (by omega)), by omega⟩
  · exact Or.inl ⟨Or.inr (Or.inr (by omega)), by omega⟩
  · rcases Nat.lt_or_ge 13 (toc 0).tocCount with hmany | hfew
    · exact Or.inr ⟨fun h => h.elim hmode fun h => h.elim hnv fun h => by omega, by omega⟩
    · exact Or.inl ⟨Or.inr (Or.inr hfew), by omega⟩

/-- Every stage is in the table, -/
theorem stages_lt_toc (hcount : (toc 0).tocCount ≤ MAX_TOC_INDEX) :
    ∀ i ∈ stages (startStages b cpn toc) (numStages b cpn mode toc), i < MAX_TOC_INDEX := by
  intro i hi
  have hlt := (mem_stages.mp hi).2
  unfold MAX_TOC_INDEX at hcount ⊢
  rcases numStages_cases b cpn mode hcount with ⟨-, hle⟩ | ⟨-, heq⟩
  · unfold MAX_DLOAD_STAGE at hle
    omega
  · omega

/-- and has a control where the stages have room. -/
theorem stagesFit_iff (b : Build) (hcount : (toc 0).tocCount ≤ MAX_TOC_INDEX) : StagesFit cpn mode toc ↔
    ∀ i ∈ stages (startStages b cpn toc) (numStages b cpn mode toc), i < MAX_DLOAD_STAGE := by
  rcases numStages_cases b cpn mode hcount with ⟨hfit, hle⟩ | ⟨hfit, heq⟩
  · refine iff_of_true hfit fun i hi => ?_
    have hlt := (mem_stages.mp hi).2
    omega
  · refine iff_of_false hfit fun hall => ?_
    have hmany : 13 < (toc 0).tocCount := by
      by_contra hle
      exact hfit (Or.inr (Or.inr (by unfold MAX_DLOAD_STAGE; omega)))
    have hstart := startStages_le b cpn toc
    unfold MAX_TOC_INDEX at hcount
    have hlast := hall 13 (mem_stages.mpr ⟨by omega, by omega⟩)
    unfold MAX_DLOAD_STAGE at hlast
    omega

/-- **The size that is found** is that of the last NV element. -/
theorem findNvSize_eq (hl : ∀ i ∈ l, i < MAX_TOC_INDEX) (nvSize : ℕ) :
    findNvSize toc l nvSize = some ((nvStage toc l).elim nvSize fun i => (toc i).size) := by
  induction l generalizing nvSize with
  | nil => rfl
  | cons i l ih =>
    rw [findNvSize, if_pos (hl i List.mem_cons_self),
      ih fun j hj => hl j (List.mem_cons_of_mem i hj)]
    unfold nvStage
    rw [List.filter_cons]
    by_cases hnv : (toc i).isNv
    · rw [if_pos hnv, if_pos hnv, List.getLast?_cons]
      cases (l.filter fun i => (toc i).isNv).getLast? <;> rfl
    · rw [if_neg hnv, if_neg hnv]

/-- **The controls of the stages**, if there is room for them. -/
theorem buildStdDloadControl_eq (fd fd' : Fd) (hl : ∀ i ∈ l, i < MAX_DLOAD_STAGE)
    (dlCtrl : ℕ → StdDloadControl) : buildStdDloadControl toc fd fd' l dlCtrl =
      some fun i => if i ∈ l then dloadControl toc fd fd' i else dlCtrl i := by
  induction l generalizing dlCtrl with
  | nil => simp [buildStdDloadControl]
  | cons i l ih =>
    have hi := hl i List.mem_cons_self
    have htoc : i < MAX_TOC_INDEX := by
      unfold MAX_DLOAD_STAGE at hi
      unfold MAX_TOC_INDEX
      omega
    rw [buildStdDloadControl, if_pos ⟨hi, htoc⟩, ih fun j hj => hl j (List.mem_cons_of_mem i hj)]
    congr 1
    funext j
    by_cases hj : j = i
    · subst hj
      simp
    · simp [hj]

theorem buildStdDloadControl_outside (fd fd' : Fd) {i : ℕ} (hi : i ∈ l)
    (hout : MAX_DLOAD_STAGE ≤ i) (dlCtrl : ℕ → StdDloadControl) :
    buildStdDloadControl toc fd fd' l dlCtrl = none := by
  induction l generalizing dlCtrl with
  | nil => exact absurd hi List.not_mem_nil
  | cons j l ih =>
    rw [buildStdDloadControl]
    split
    · rename_i hj
      rcases List.mem_cons.mp hi with rfl | hi
      · exact absurd hj.1 (by omega)
      · exact ih hi _
    · rfl

/-- **How `prepare_boot_args` ends.** -/
theorem prepareBootArgs_cases (b : Build) (cpn : ModemComp) (mode : BootMode) (io : PrepareIo)
    (file : List (BitVec 8)) :
    (∃ toc, Passes b cpn mode io file toc ∧
      (StagesFit cpn mode toc ∧
          prepareBootArgs b cpn mode io file = .args (preparedArgs b cpn mode toc) ∨
        ¬ StagesFit cpn mode toc ∧ prepareBootArgs b cpn mode io file = .outside)) ∨
      ((∀ toc, ¬ Passes b cpn mode io file toc) ∧
        prepareBootArgs b cpn mode io file = .null) := by
  unfold prepareBootArgs
  by_cases hdevice : io.device = false
  · rw [if_pos hdevice]
    exact Or.inr ⟨fun toc h => by simp [h.device] at hdevice, rfl⟩
  rw [if_neg hdevice]
  by_cases hbin : io.bin = false
  · rw [if_pos hbin]
    exact Or.inr ⟨fun toc h => by simp [h.bin] at hbin, rfl⟩
  rw [if_neg hbin]
  rcases hread : io.read with _ | n
  · refine Or.inr ⟨fun toc h => ?_, rfl⟩
    obtain ⟨n, hn, -⟩ := h.read
    rw [hread] at hn
    exact absurd hn nofun
  -- a table was read, and it is the only one
  have honly : ∀ {toc}, Passes b cpn mode io file toc → toc = tocElement (tocBytes file n) := by
    intro toc h
    obtain ⟨n', hn, rfl⟩ := h.read
    rw [Option.some.inj (hread.symm.trans hn)]
  dsimp only
  generalize htable : tocElement (tocBytes file n) = toc at honly ⊢
  by_cases hname : (toc 0).isToc = false
  · rw [if_pos hname]
    exact Or.inr ⟨fun toc' h => by simp [← honly h, h.name] at hname, rfl⟩
  rw [if_neg hname]
  by_cases hcount : MAX_TOC_INDEX < (toc 0).tocCount
  · rw [if_pos hcount]
    refine Or.inr ⟨fun toc' h => ?_, rfl⟩
    have hle := h.count
    rw [honly h] at hle
    omega
  rw [if_neg hcount]
  have hcount' : (toc 0).tocCount ≤ MAX_TOC_INDEX := by omega
  rw [findNvSize_eq (stages_lt_toc hcount')]
  dsimp only
  have hsize : (mode ≠ .dump ∧ (nvStage toc (stages (startStages b cpn toc)
      (numStages b cpn mode toc))).elim 0 (fun i => (toc i).size) = 0 ∧ cpn.pathNv = true) ↔
      ¬ (mode ≠ .dump → cpn.pathNv = true → ∃ i ∈ nvStage toc (stages (startStages b cpn toc)
        (numStages b cpn mode toc)), (toc i).size ≠ 0) := by
    rcases nvStage toc (stages (startStages b cpn toc) (numStages b cpn mode toc)) with _ | i
    · simp
    · simp
      tauto
  by_cases hnv : (mode ≠ .dump ∧ (nvStage toc (stages (startStages b cpn toc)
      (numStages b cpn mode toc))).elim 0 (fun i => (toc i).size) = 0 ∧ cpn.pathNv = true)
  · rw [if_pos hnv]
    exact Or.inr ⟨fun toc' h => hsize.mp hnv (honly h ▸ h.nvSize), rfl⟩
  rw [if_neg hnv]
  by_cases hopen : opensNv cpn mode = true ∧ io.nv.ok = false
  · rw [if_pos hopen]
    exact Or.inr ⟨fun toc' h => by simp [h.nv hopen.1] at hopen, rfl⟩
  rw [if_neg hopen]
  by_cases hprot : opensNvProt b cpn mode = true ∧ io.nvProt.ok = false
  · rw [if_pos hprot]
    exact Or.inr ⟨fun toc' h => by simp [h.nvProt hprot.1] at hprot, rfl⟩
  rw [if_neg hprot]
  -- every check is passed
  refine Or.inl ⟨toc, ⟨by simpa using hdevice, by simpa using hbin, ⟨n, hread, htable.symm⟩,
    by simpa using hname, hcount', not_not.mp (hsize.not.mp hnv), fun h => by simpa [h] using hopen,
    fun h => by simpa [h] using hprot⟩, ?_⟩
  by_cases hfit : StagesFit cpn mode toc
  · rw [buildStdDloadControl_eq _ _ ((stagesFit_iff b hcount').mp hfit)]
    exact Or.inl ⟨hfit, rfl⟩
  · obtain ⟨i, hi, hout⟩ : ∃ i ∈ stages (startStages b cpn toc) (numStages b cpn mode toc),
        MAX_DLOAD_STAGE ≤ i := by
      by_contra hno
      exact hfit ((stagesFit_iff b hcount').mpr fun i hi =>
        not_le.mp fun hle => hno ⟨i, hi, hle⟩)
    rw [buildStdDloadControl_outside _ _ hi hout]
    exact Or.inr ⟨hfit, rfl⟩

theorem Passes.prepared (h : Passes b cpn mode io file toc) (hfit : StagesFit cpn mode toc) :
    prepareBootArgs b cpn mode io file = .args (preparedArgs b cpn mode toc) := by
  rcases prepareBootArgs_cases b cpn mode io file with ⟨toc', h', hend⟩ | ⟨hno, -⟩
  · obtain rfl := h.unique h'
    exact hend.elim And.right fun hout => absurd hfit hout.1
  · exact absurd h (hno toc)

theorem Passes.outside (h : Passes b cpn mode io file toc) (hfit : ¬ StagesFit cpn mode toc) :
    prepareBootArgs b cpn mode io file = .outside := by
  rcases prepareBootArgs_cases b cpn mode io file with ⟨toc', h', hend⟩ | ⟨hno, -⟩
  · obtain rfl := h.unique h'
    exact hend.elim (fun hargs => absurd hargs.1 hfit) And.right
  · exact absurd h (hno toc)

theorem prepareBootArgs_null (hno : ∀ toc, ¬ Passes b cpn mode io file toc) :
    prepareBootArgs b cpn mode io file = .null := by
  rcases prepareBootArgs_cases b cpn mode io file with ⟨toc, h, -⟩ | ⟨-, hnull⟩
  · exact absurd h (hno toc)
  · exact hnull

end Stages

end ExynosVendor.CpBoot
