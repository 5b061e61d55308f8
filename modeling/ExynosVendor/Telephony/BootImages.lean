import ExynosVendor.Telephony.BootStages
import Mathlib.Algebra.Order.Ring.Int

/-!
# The images of a boot

`load_cp_images` and `load_cp_image_by_stage` of `cpboot_v2/boot_shannon310.c`. An image
goes to the modem in chunks, and the last one is that which is no whole chunk: it is there
also when the size is a multiple of a chunk, and has no bytes then. An image as long as its
offset in the file is taken for one that is already loaded.
-/

namespace ExynosVendor.CpBoot

open List

def EXYNOS_PAYLOAD_LEN : ℕ := 62 * 1024

def ENOMEM : ℤ := 12

def EFAULT : ℤ := 14

/-! ## The code -/

/-- What `IOCTL_LOAD_CP_IMAGE` is given, with the bytes of `binary` as far as `len`. -/
structure ModemImg where
  size : ℕ
  mOffset : ℕ
  bOffset : ℕ
  mode : BootMode
  len : ℕ
  binary : List (BitVec 8)

/-- What the system answers while an image is loaded: whether `malloc` and `lseek` go well,
and in each turn how much `read` would give, and the result of the `ioctl`. -/
structure LoadIo where
  malloc : Bool
  lseek : Bool
  read : ℕ → Option ℕ
  ioctl : ℕ → ℤ

/-- `u32` subtraction. -/
def sub32 (a b : ℕ) : ℕ := (a + 2 ^ 32 - b) % 2 ^ 32

/-- The loop of `load_cp_image_by_stage`, with the chunks whose `ioctl` succeeds. A chunk has
at most a payload. -/
def loadTurns (payload : ℕ) (mode : BootMode) (io : LoadIo) (file : List (BitVec 8)) (size bOffset : ℕ) :
    ℕ → ℕ → ℕ → ℕ → ℕ → ℤ → Option (ℤ × List ModemImg)
  | 0, _, _, _, _, _ => none
  | fuel + 1, turn, position, total, mOffset, ret =>
    if size = bOffset then some (ret, [])
    else
      let last := sub32 size total < payload
      let len := if last then sub32 size total else payload
      match io.read turn with
      | none => some (-1, [])
      | some n =>
        let got := min n (min len (file.length - position))
        if got ≠ len then some (-EFAULT, [])
        else if io.ioctl turn < 0 then some (io.ioctl turn, [])
        else
          let img : ModemImg :=
            ⟨size, mOffset, bOffset, mode, len, (file.drop position).take len⟩
          if last then some (io.ioctl turn, [img])
          else
            (loadTurns payload mode io file size bOffset fuel (turn + 1) (position + got)
              ((total + len) % 2 ^ 32) ((mOffset + len) % 2 ^ 32) (io.ioctl turn)).map
              fun r => (r.1, img :: r.2)

/-- The result of `lseek`, kept in an `int`. A descriptor of -1 cannot be positioned. -/
def LoadIo.seek (io : LoadIo) (fd : Fd) (offset : ℕ) : ℤ :=
  if io.lseek = true ∧ fd ≠ .closed then
    if offset < 2 ^ 31 then offset else offset - 2 ^ 32
  else -1

def loadCpImageByStage (mode : BootMode) (io : LoadIo) (files : Fd → List (BitVec 8))
    (dlc : StdDloadControl) : Option (ℤ × List ModemImg) :=
  if io.malloc = false then some (-ENOMEM, [])
  else if io.seek dlc.bFd dlc.bOffset < 0 then some (io.seek dlc.bFd dlc.bOffset, [])
  else
    loadTurns EXYNOS_PAYLOAD_LEN mode io (files dlc.bFd) dlc.bSize dlc.bOffset (dlc.bSize + 1) 0
      dlc.bOffset 0 dlc.mOffset (io.seek dlc.bFd dlc.bOffset)

/-- Whether a stage is passed over, with the first byte of `vendor.cbd.first_xmit_done`. -/
def StdDloadControl.skipped (dlc : StdDloadControl) (prop : BitVec 8) : Bool :=
  dlc.dlOnce && prop = 0x31

/-- The loop of `load_cp_images`, with the chunks of each stage. A `char` of the property has no
sign, as on the vendor's processors. -/
def loadStages (mode : BootMode) (io : ℕ → LoadIo) (files : Fd → List (BitVec 8))
    (prop : BitVec 8) (dlCtrl : ℕ → StdDloadControl) :
    List ℕ → Option (ℤ × List (ℕ × List ModemImg))
  | [] => some ((prop.toNat : ℤ) - 0x30, [])
  | stage :: rest =>
    if MAX_DLOAD_STAGE ≤ stage then none
    else if (dlCtrl stage).skipped prop then loadStages mode io files prop dlCtrl rest
    else
      (loadCpImageByStage mode (io stage) files (dlCtrl stage)).bind fun r =>
        if r.1 < 0 then some (r.1, [(stage, r.2)])
        else
          (loadStages mode io files prop dlCtrl rest).map fun r' => (r'.1, (stage, r.2) :: r'.2)

/-- `load_cp_images`, or nothing where it leaves the controls or does not end. -/
def loadCpImages (mode : BootMode) (io : ℕ → LoadIo) (files : Fd → List (BitVec 8))
    (prop : BitVec 8) (args : StdBootArgs) : Option (ℤ × List (ℕ × List ModemImg)) :=
  loadStages mode io files prop args.dlCtrl (stages args.startStages args.numStages)

/-! ## What is claimed -/

/-- **The chunks are the image** from a position on: none is empty or longer than a payload,
each has its place and its bytes, and they end with the image. -/
def Exact (payload : ℕ) (image : List (BitVec 8)) (mOffset : ℕ) : ℕ → List ModemImg → Prop
  | position, [] => position = image.length
  | position, img :: imgs =>
    (img.len ≠ 0 ∧ img.len ≤ payload ∧ img.binary.length = img.len ∧
      img.mOffset = (mOffset + position) % 2 ^ 32 ∧
      img.binary = (image.drop position).take img.len) ∧
    Exact payload image mOffset (position + img.len) imgs

/-- **An image is loaded**: all that the table says is in the file, and the chunks are it. -/
def ExactlyLoaded (file : List (BitVec 8)) (dlc : StdDloadControl) (imgs : List ModemImg) : Prop :=
  ((file.drop dlc.bOffset).take dlc.bSize).length = dlc.bSize ∧
    Exact EXYNOS_PAYLOAD_LEN ((file.drop dlc.bOffset).take dlc.bSize) dlc.mOffset 0 imgs

/-- **A boot loads exactly what the table names**: no loop leaves an array or goes on
forever, and where the images are said to be loaded, each stage's is that is not passed
over. -/
def LoadsExactly (b : Build) (cpn : ModemComp) (mode : BootMode) (io : PrepareIo)
    (files : Fd → List (BitVec 8)) (prop : BitVec 8) : Prop :=
  match prepareBootArgs b cpn mode io (files .bin) with
  | .outside => False
  | .null => True
  | .args args => ∀ loadIo, ∃ ret loaded,
      loadCpImages mode loadIo files prop args = some (ret, loaded) ∧
      (0 ≤ ret →
        loaded.map Prod.fst = (stages args.startStages args.numStages).filter
          (fun stage => ! (args.dlCtrl stage).skipped prop) ∧
        ∀ r ∈ loaded, ExactlyLoaded (files (args.dlCtrl r.1).bFd) (args.dlCtrl r.1) r.2)

/-- **An image can be loaded**: there is a file for it, its offset fits into an `int`, and
what is read of the file is there. -/
def StdDloadControl.Loadable (dlc : StdDloadControl) (files : Fd → List (BitVec 8)) : Prop :=
  dlc.bFd ≠ .closed ∧ dlc.bOffset < 2 ^ 31 ∧
    (dlc.bSize = dlc.bOffset ∨ dlc.bSize = 0 ∨
      dlc.bOffset + dlc.bSize ≤ (files dlc.bFd).length)

/-- **The end of an image is seen**: an image as long as its offset is empty, and any other
ends with a part of a chunk. -/
def StdDloadControl.Ends (dlc : StdDloadControl) : Prop :=
  if dlc.bSize = dlc.bOffset then dlc.bSize = 0 else dlc.bSize % EXYNOS_PAYLOAD_LEN ≠ 0

/-- Where all stages of a table can be loaded, their ends are seen. -/
def EndsSeen (b : Build) (cpn : ModemComp) (mode : BootMode) (files : Fd → List (BitVec 8))
    (prop : BitVec 8) (toc : ℕ → StdTocElement) : Prop :=
  0x30 ≤ prop.toNat →
    (∀ stage ∈ stages (startStages b cpn toc) (numStages b cpn mode toc),
      (dloadControl toc (nvFd cpn mode) (nvProtFd b cpn mode) stage).skipped prop = false →
      (dloadControl toc (nvFd cpn mode) (nvProtFd b cpn mode) stage).Loadable files) →
    ∀ stage ∈ stages (startStages b cpn toc) (numStages b cpn mode toc),
      (dloadControl toc (nvFd cpn mode) (nvProtFd b cpn mode) stage).skipped prop = false →
      (dloadControl toc (nvFd cpn mode) (nvProtFd b cpn mode) stage).Ends

/-- **When a boot is right**: the stages of a table that passes the checks have room, and
their ends are seen. -/
def LoadsRight (b : Build) (cpn : ModemComp) (mode : BootMode) (io : PrepareIo)
    (files : Fd → List (BitVec 8)) (prop : BitVec 8) : Prop :=
  ∀ toc, Passes b cpn mode io (files .bin) toc →
    StagesFit cpn mode toc ∧ EndsSeen b cpn mode files prop toc

/-! ## An image -/

theorem sub32_eq {a b : ℕ} (hb : b ≤ a) (ha : a < 2 ^ 32) : sub32 a b = a - b := by
  unfold sub32
  omega

/-- A system that refuses nothing. -/
def LoadIo.plenty (payload : ℕ) : LoadIo := ⟨true, true, fun _ => some payload, fun _ => 0⟩

/-- A control's numbers are `u32`. -/
structure StdDloadControl.Words (dlc : StdDloadControl) : Prop where
  bOffset : dlc.bOffset < 2 ^ 32
  mOffset : dlc.mOffset < 2 ^ 32
  bSize : dlc.bSize < 2 ^ 32

theorem words_dloadControl (bytes : List (BitVec 8)) (fd fd' : Fd) (i : ℕ) :
    (dloadControl (tocElement bytes) fd fd' i).Words :=
  ⟨u32At_lt _ _, lt_of_le_of_lt Nat.and_le_left (u32At_lt _ _), u32At_lt _ _⟩

section Image

variable {mode : BootMode} {io : LoadIo} {files : Fd → List (BitVec 8)} {file : List (BitVec 8)}
  {payload size bOffset m k fuel : ℕ} {dlc : StdDloadControl} {ret : ℤ}

/-- The bytes of a chunk, as bytes of the image. -/
theorem chunk_eq {position len : ℕ} (h : position + len ≤ size) :
    (file.drop (bOffset + position)).take len =
      (((file.drop bOffset).take size).drop position).take len := by
  rw [drop_take, take_take, drop_drop, min_eq_left (by omega)]

/-- **The loop ends**, and where it succeeds what it reads is there, and the chunks are the
image if the last of them has bytes. -/
theorem loadTurns_spec (mode : BootMode) (io : LoadIo) (file : List (BitVec 8)) (m fuel k : ℕ)
    (ret : ℤ) (hpos : 0 < payload) (hpay : payload < 2 ^ 32) (hsize : size < 2 ^ 32)
    (hne : size ≠ bOffset) (hk : k * payload ≤ size) (hfuel : size < (k + fuel) * payload) : ∃ ret' imgs,
      loadTurns payload mode io file size bOffset fuel k (bOffset + k * payload)
          (k * payload) ((m + k * payload) % 2 ^ 32) ret =
        some (ret', imgs) ∧
      (0 ≤ ret' →
        (size = k * payload ∨ bOffset + size ≤ file.length) ∧
        (bOffset + size ≤ file.length ∨ size = 0 →
          (Exact payload ((file.drop bOffset).take size) m (k * payload) imgs ↔
            size % payload ≠ 0))) ∧
      (io = .plenty payload → bOffset + size ≤ file.length ∨ size = 0 → 0 ≤ ret') := by
  induction fuel generalizing k ret with
  | zero => exact absurd hfuel (by simpa using hk)
  | succ fuel ih =>
    rw [loadTurns, if_neg hne]
    dsimp only
    rw [sub32_eq hk hsize]
    rcases hread : io.read k with _ | n
    · exact ⟨-1, [], rfl, fun h => absurd h (by decide), fun h => by
        rw [h] at hread
        exact absurd hread nofun⟩
    dsimp only
    by_cases hgot : min n (min (if size - k * payload < payload then
        size - k * payload else payload)
        (file.length - (bOffset + k * payload))) ≠
        if size - k * payload < payload then
          size - k * payload else payload
    · rw [if_pos hgot]
      refine ⟨-EFAULT, [], rfl, fun h => absurd h (by decide), fun hio hfile => absurd ?_ hgot⟩
      rw [hio] at hread
      obtain rfl := Option.some.inj hread
      split_ifs <;> omega
    rw [if_neg hgot]
    rw [not_not] at hgot
    by_cases hioctl : io.ioctl k < 0
    · rw [if_pos hioctl]
      exact ⟨io.ioctl k, [], rfl, fun h => absurd h (by omega), fun hio _ => by
        rw [hio] at hioctl
        exact absurd hioctl (lt_irrefl 0)⟩
    rw [if_neg hioctl]
    by_cases hlast : size - k * payload < payload
    · -- the last chunk, which may have no bytes
      simp only [if_pos hlast] at hgot ⊢
      have hrest : size % payload = size - k * payload := by
        obtain ⟨r, rfl⟩ := Nat.exists_eq_add_of_le hk
        rw [Nat.add_comm, Nat.add_mul_mod_self_right, Nat.add_sub_cancel]
        exact Nat.mod_eq_of_lt (by omega)
      refine ⟨io.ioctl k, _, rfl, fun _ => ⟨by omega, fun hfile => ?_⟩, fun _ _ => by omega⟩
      rw [hrest]
      constructor
      · exact fun h => h.1.1
      · intro hsome
        refine ⟨⟨hsome, hlast.le, ?_, rfl, chunk_eq (by omega)⟩, ?_⟩
        · show _ = size - k * payload
          rw [length_take, length_drop]
          omega
        · show k * payload + (size - k * payload) =
            ((file.drop bOffset).take size).length
          rw [length_take, length_drop]
          omega
    · -- a whole chunk, and what is left
      simp only [if_neg hlast] at hgot ⊢
      have hnext : k * payload + payload = (k + 1) * payload :=
        (Nat.succ_mul k _).symm
      have hplace : bOffset + k * payload + payload =
          bOffset + (k + 1) * payload := by rw [← hnext, Nat.add_assoc]
      have htotal : (k * payload + payload) % 2 ^ 32 =
          (k + 1) * payload := by
        rw [hnext]
        exact Nat.mod_eq_of_lt (by omega)
      have hoffset : ((m + k * payload) % 2 ^ 32 + payload) % 2 ^ 32 =
          (m + (k + 1) * payload) % 2 ^ 32 := by
        rw [Nat.mod_add_mod, Nat.add_assoc, hnext]
      obtain ⟨ret', imgs, hrun, hok, hplenty⟩ := ih (k + 1) (io.ioctl k) (by omega)
        (by rwa [Nat.add_right_comm, Nat.add_assoc k])
      rw [hgot, hplace, htotal, hoffset, hrun]
      refine ⟨ret', _, rfl, fun h => ?_, hplenty⟩
      obtain ⟨hthere, hexact⟩ := hok h
      refine ⟨by omega, fun hfile => ?_⟩
      rw [Exact, hnext, hexact hfile]
      refine and_iff_right ⟨?_, le_rfl, ?_, rfl, chunk_eq (by omega)⟩
      · show payload ≠ 0
        omega
      · show _ = payload
        rw [length_take, length_drop]
        omega

/-- **An image is loaded by its stage** if it can be, and is right if its end is seen. -/
theorem loadCpImageByStage_spec (mode : BootMode) (io : LoadIo) (files : Fd → List (BitVec 8))
    (hdlc : dlc.Words) : ∃ ret imgs,
      loadCpImageByStage mode io files dlc = some (ret, imgs) ∧
      (0 ≤ ret → dlc.Loadable files ∧ (ExactlyLoaded (files dlc.bFd) dlc imgs ↔ dlc.Ends)) ∧
      (io = .plenty EXYNOS_PAYLOAD_LEN → dlc.Loadable files → 0 ≤ ret) := by
  obtain ⟨hwide, hm, hsize⟩ := hdlc
  unfold loadCpImageByStage
  by_cases hmalloc : io.malloc = false
  · rw [if_pos hmalloc]
    exact ⟨-ENOMEM, [], rfl, fun h => absurd h (by decide), fun hio => by
      rw [hio] at hmalloc
      exact absurd hmalloc (by decide)⟩
  rw [if_neg hmalloc]
  by_cases hseek : io.seek dlc.bFd dlc.bOffset < 0
  · rw [if_pos hseek]
    refine ⟨_, [], rfl, fun h => absurd h (by omega), fun hio h => absurd hseek ?_⟩
    unfold LoadIo.seek
    rw [hio, if_pos ⟨rfl, h.1⟩, if_pos h.2.1]
    omega
  rw [if_neg hseek]
  obtain ⟨hfd, hoffset⟩ : dlc.bFd ≠ .closed ∧ dlc.bOffset < 2 ^ 31 := by
    unfold LoadIo.seek at hseek
    split_ifs at hseek with hfd hlt
    · exact ⟨hfd.2, hlt⟩
    · omega
    · exact absurd (show (-1 : ℤ) < 0 by decide) hseek
  have hstart : 0 ≤ io.seek dlc.bFd dlc.bOffset := by omega
  by_cases hloaded : dlc.bSize = dlc.bOffset
  · -- taken for loaded already
    rw [loadTurns, if_pos hloaded]
    refine ⟨_, [], rfl, fun _ => ⟨⟨hfd, hoffset, Or.inl hloaded⟩, ?_⟩, fun _ _ => hstart⟩
    unfold ExactlyLoaded StdDloadControl.Ends
    rw [if_pos hloaded, Exact]
    constructor
    · exact fun h => h.1.symm.trans h.2.symm
    · intro h
      simp [h]
  · obtain ⟨ret, imgs, hrun, hok, hplenty⟩ := loadTurns_spec mode io (files dlc.bFd) dlc.mOffset
      (dlc.bSize + 1) 0 (io.seek dlc.bFd dlc.bOffset) (show 0 < EXYNOS_PAYLOAD_LEN by decide)
      (by decide) hsize hloaded (by omega) (by unfold EXYNOS_PAYLOAD_LEN; omega)
    simp only [Nat.zero_mul, Nat.add_zero, Nat.mod_eq_of_lt hm] at hrun
    refine ⟨ret, imgs, hrun, fun h => ?_, fun hio h => hplenty hio ?_⟩
    · obtain ⟨hthere, hexact⟩ := hok h
      rw [Nat.zero_mul] at hthere hexact
      have hfile : dlc.bOffset + dlc.bSize ≤ (files dlc.bFd).length ∨ dlc.bSize = 0 :=
        hthere.symm
      refine ⟨⟨hfd, hoffset, Or.inr hthere⟩, ?_⟩
      unfold ExactlyLoaded StdDloadControl.Ends
      rw [if_neg hloaded, hexact hfile]
      refine and_iff_right ?_
      rw [length_take, length_drop]
      omega
    · exact (h.2.2.resolve_left hloaded).symm

end Image

/-! ## All of them -/

section Images

variable {b : Build} {cpn : ModemComp} {mode : BootMode} {io : ℕ → LoadIo}
  {files : Fd → List (BitVec 8)} {prop : BitVec 8} {dlCtrl : ℕ → StdDloadControl} {l : List ℕ}

/-- **The stages are loaded** one after the other. -/
theorem loadStages_spec (mode : BootMode) (io : ℕ → LoadIo) (files : Fd → List (BitVec 8))
    (prop : BitVec 8) (hl : ∀ stage ∈ l, stage < MAX_DLOAD_STAGE ∧ (dlCtrl stage).Words) :
    ∃ ret loaded, loadStages mode io files prop dlCtrl l = some (ret, loaded) ∧
      (0 ≤ ret → 0x30 ≤ prop.toNat ∧
        (∀ stage ∈ l, (dlCtrl stage).skipped prop = false → (dlCtrl stage).Loadable files) ∧
        loaded.map Prod.fst = l.filter (fun stage => ! (dlCtrl stage).skipped prop) ∧
        ((∀ r ∈ loaded, ExactlyLoaded (files (dlCtrl r.1).bFd) (dlCtrl r.1) r.2) ↔
          ∀ stage ∈ l, (dlCtrl stage).skipped prop = false → (dlCtrl stage).Ends)) ∧
      ((∀ stage, io stage = .plenty EXYNOS_PAYLOAD_LEN) → 0x30 ≤ prop.toNat →
        (∀ stage ∈ l, (dlCtrl stage).skipped prop = false → (dlCtrl stage).Loadable files) →
        0 ≤ ret) := by
  induction l with
  | nil =>
    exact ⟨_, [], rfl, fun h => ⟨by omega, nofun, rfl, iff_of_true nofun nofun⟩,
      fun _ h _ => by omega⟩
  | cons stage l ih =>
    obtain ⟨hstage, hwords⟩ := hl stage mem_cons_self
    obtain ⟨ret, loaded, hrun, hok, hplenty⟩ := ih fun s hs => hl s (mem_cons_of_mem stage hs)
    rw [loadStages, if_neg (by omega)]
    by_cases hskip : (dlCtrl stage).skipped prop
    · rw [if_pos hskip, hrun]
      refine ⟨ret, loaded, rfl, ?_⟩
      simp only [forall_mem_cons, hskip, Bool.true_eq_false, false_implies, true_and,
        filter_cons, Bool.not_true]
      exact ⟨hok, hplenty⟩
    rw [if_neg hskip]
    rw [Bool.not_eq_true] at hskip
    obtain ⟨first, imgs, hfirst, hfirstOk, hfirstPlenty⟩ :=
      loadCpImageByStage_spec mode (io stage) files hwords
    rw [hfirst, Option.bind_some]
    by_cases hfail : first < 0
    · rw [if_pos hfail]
      refine ⟨first, _, rfl, fun h => absurd h (by omega), fun hio _ hload => ?_⟩
      exact hfirstPlenty (hio stage) (hload stage mem_cons_self hskip)
    rw [if_neg hfail, hrun]
    obtain ⟨hloadable, hexact⟩ := hfirstOk (by omega)
    refine ⟨ret, _, rfl, ?_⟩
    simp only [forall_mem_cons, hskip, forall_true_left, filter_cons, Bool.not_false,
      if_true, map_cons, hexact]
    refine ⟨fun h => ?_, fun hio hprop hload => hplenty hio hprop hload.2⟩
    obtain ⟨hprop, hall, hnames, hends⟩ := hok h
    exact ⟨hprop, ⟨hloadable, hall⟩, by rw [hnames], and_congr_right fun _ => hends⟩

section Table

variable {pio : PrepareIo} {toc : ℕ → StdTocElement}

/-- **Where the stages have room**, the ends of the images decide. -/
theorem loadsExactly_iff_ends (hpass : Passes b cpn mode pio (files .bin) toc)
    (hfit : StagesFit cpn mode toc) :
    LoadsExactly b cpn mode pio files prop ↔ EndsSeen b cpn mode files prop toc := by
  have hctrl : ∀ stage ∈ stages (startStages b cpn toc) (numStages b cpn mode toc),
      (preparedArgs b cpn mode toc).dlCtrl stage =
        dloadControl toc (nvFd cpn mode) (nvProtFd b cpn mode) stage := fun _ hs => if_pos hs
  have hwords : ∀ stage ∈ stages (startStages b cpn toc) (numStages b cpn mode toc),
      stage < MAX_DLOAD_STAGE ∧ ((preparedArgs b cpn mode toc).dlCtrl stage).Words := by
    intro stage hs
    obtain ⟨n, -, htoc⟩ := hpass.read
    rw [hctrl stage hs, htoc]
    exact ⟨(stagesFit_iff b hpass.count).mp hfit stage hs, words_dloadControl _ _ _ stage⟩
  have hspec := fun loadIo => loadStages_spec mode loadIo files prop hwords
  unfold LoadsExactly
  rw [hpass.prepared hfit]
  constructor
  · intro h hprop hloadable stage hs hskip
    obtain ⟨ret, loaded, hrun, hok, hplenty⟩ := hspec fun _ => .plenty EXYNOS_PAYLOAD_LEN
    obtain ⟨ret', loaded', hrun', hexact⟩ := h fun _ => .plenty EXYNOS_PAYLOAD_LEN
    obtain ⟨rfl, rfl⟩ := Prod.mk.inj (Option.some.inj (hrun.symm.trans hrun'))
    have hret : 0 ≤ ret := hplenty (fun _ => rfl) hprop fun s hs => by
      rw [hctrl s hs]
      exact hloadable s hs
    have hends := (hok hret).2.2.2.mp (hexact hret).2 stage hs
    rw [hctrl stage hs] at hends
    exact hends hskip
  · intro h loadIo
    obtain ⟨ret, loaded, hrun, hok, -⟩ := hspec loadIo
    refine ⟨ret, loaded, hrun, fun hret => ?_⟩
    obtain ⟨hprop, hloadable, hnames, hexact⟩ := hok hret
    refine ⟨hnames, hexact.mpr fun stage hs => ?_⟩
    rw [hctrl stage hs]
    refine h hprop (fun s hs => ?_) stage hs
    rw [← hctrl s hs]
    exact hloadable s hs

/-- Where they have not, an array is left. -/
theorem not_loadsExactly_of_outside (hpass : Passes b cpn mode pio (files .bin) toc)
    (hfit : ¬ StagesFit cpn mode toc) : ¬ LoadsExactly b cpn mode pio files prop := by
  unfold LoadsExactly
  rw [hpass.outside hfit]
  exact id

end Table

/-- **A boot loads exactly what the table names** when the stages have room and the ends of
the images are seen. -/
theorem loadsExactly_iff (b : Build) (cpn : ModemComp) (mode : BootMode) (io : PrepareIo)
    (files : Fd → List (BitVec 8)) (prop : BitVec 8) :
    LoadsExactly b cpn mode io files prop ↔ LoadsRight b cpn mode io files prop := by
  by_cases hpass : ∃ toc, Passes b cpn mode io (files .bin) toc
  · obtain ⟨toc, hpass⟩ := hpass
    have hright : LoadsRight b cpn mode io files prop ↔ StagesFit cpn mode toc ∧ _ :=
      ⟨fun h => h toc hpass, fun h toc' hpass' => hpass.unique hpass' ▸ h⟩
    rw [hright]
    by_cases hfit : StagesFit cpn mode toc
    · rw [and_iff_right hfit]
      exact loadsExactly_iff_ends hpass hfit
    · exact iff_of_false (not_loadsExactly_of_outside hpass hfit) fun h => hfit h.1
  · have hno := not_exists.mp hpass
    unfold LoadsExactly
    rw [prepareBootArgs_null hno]
    exact iff_of_true trivial fun toc h => absurd h (hno toc)

/-- An element of a table, as bytes. -/
def elementBytes (name : List Char) (bOffset size count : ℕ) : List (BitVec 8) :=
  name.map (fun c : Char => BitVec.ofNat 8 c.toNat) ++
    List.replicate (MAX_IMG_NAME_LEN - name.length) 0 ++
    LittleEndian.encode 4 bOffset ++ LittleEndian.encode 4 0 ++ LittleEndian.encode 4 size ++
    LittleEndian.encode 4 0 ++ LittleEndian.encode 4 count

/-- Two images that are as long as their offset, -/
def asLong : List (BitVec 8) :=
  elementBytes ['T', 'O', 'C'] 0 512 3 ++ elementBytes ['B', 'O', 'O', 'T'] 512 512 1 ++
    elementBytes ['M', 'A', 'I', 'N'] 512 512 2

/-- and a table of 14 elements. -/
def fourteen : List (BitVec 8) :=
  elementBytes ['T', 'O', 'C'] 0 512 14 ++ elementBytes ['N', 'V'] 0 1 1

def readable : PrepareIo := ⟨true, true, some 512, .opened, .opened⟩

/-- **Neither is loaded as the table says**: the one is said to be loaded without a byte, and
the other leaves the controls. -/
theorem not_loadsExactly :
    ¬ LoadsExactly ⟨false, false⟩ .modap .normal readable (fun _ => asLong) 0x30 ∧
      ¬ LoadsExactly ⟨false, false⟩ .ss310 .normal readable (fun _ => fourteen) 0x30 := by
  constructor
  · have hpass : Passes ⟨false, false⟩ .modap .normal readable asLong
        (tocElement (tocBytes asLong 512)) :=
      ⟨rfl, rfl, ⟨512, rfl, rfl⟩, by decide, by decide, fun _ h => absurd h (by decide),
        fun _ => rfl, fun _ => rfl⟩
    rw [loadsExactly_iff_ends hpass (Or.inr (Or.inl rfl))]
    intro h
    have hstages : ∀ stage ∈ stages (startStages ⟨false, false⟩ .modap
          (tocElement (tocBytes asLong 512))) (numStages ⟨false, false⟩ .modap .normal
          (tocElement (tocBytes asLong 512))),
        (dloadControl (tocElement (tocBytes asLong 512)) .closed .closed stage).bFd ≠ .closed ∧
          (dloadControl (tocElement (tocBytes asLong 512)) .closed .closed stage).bOffset < 2 ^ 31 ∧
          (dloadControl (tocElement (tocBytes asLong 512)) .closed .closed stage).bSize =
            (dloadControl (tocElement (tocBytes asLong 512)) .closed .closed stage).bOffset := by
      decide
    have hends := h (by decide) (fun stage hs _ => ⟨(hstages stage hs).1, (hstages stage hs).2.1,
      Or.inl (hstages stage hs).2.2⟩) 1 (by decide) (by decide)
    exact absurd hends (by unfold StdDloadControl.Ends; decide)
  · have hpass : Passes ⟨false, false⟩ .ss310 .normal readable fourteen
        (tocElement (tocBytes fourteen 512)) :=
      ⟨rfl, rfl, ⟨512, rfl, rfl⟩, by decide, by decide,
        fun _ _ => ⟨1, by decide, by decide⟩, fun _ => rfl, fun _ => rfl⟩
    refine not_loadsExactly_of_outside hpass ?_
    rintro (hmode | hnv | hcount)
    · exact absurd hmode (by decide)
    · exact absurd hnv (by decide)
    · exact absurd hcount (by decide)

end Images

end ExynosVendor.CpBoot
