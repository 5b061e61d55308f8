import ExynosVendor.Common.File
import ExynosVendor.Common.LittleEndian
import ExynosVendor.Common.Run
import ExynosVendor.Ril.Basic

/-!
# The NV items and their file

The cache of `libnv/nv.c` and the file behind it. The file has a header,
a table of the items and an area with their data, and `set_nv_item` lets
the table and the area grow where the header says they are.
`agrees_of_fits` says when what is loaded again is what the cache holds.

Sizes and offsets are numbers here; a sum that the program takes of two
`unsigned long` wraps.
-/

namespace ExynosVendor.Nv

open Ril (BYTE)
open List Option

def maxNvItemNum : ℕ := 5000

/-- `sizeof(struct nv_item)`. -/
def itemSize : ℕ := 32

/-- `sizeof(struct nv_item_head)`. -/
def headSize : ℕ := 32

/-- `struct nv_item` in the cache: its id, and the data it points to. -/
structure Item where
  /-- `item_id`. -/
  id : BitVec 64
  /-- What `nv_item_data` points to; there are `item_size` bytes of it. -/
  data : List BYTE
  deriving DecidableEq

/-- `nv_item_header`. The table has `total_nv_item_num` items. -/
structure Cache where
  /-- `nv_item_aera_offset`. -/
  itemOffset : ℕ
  /-- `nv_data_area_offset`. -/
  dataOffset : ℕ
  /-- `nv_data_area_size`. -/
  dataSize : ℕ
  /-- `nv_items`. -/
  items : List Item
  deriving DecidableEq

/-- The cache and the file it was loaded from. -/
structure Store where
  cache : Cache
  file : List BYTE

/-- A buffer of `zero_alloc`, with what is read into it. -/
def load (file : List BYTE) (offset n : ℕ) : List BYTE :=
  File.load 0 file offset n

def write (file : List BYTE) (offset : ℕ) (bytes : List BYTE) : List BYTE :=
  File.write 0 file offset bytes

/-- The position `lseek` returns is no negative number in an `int`. -/
def Seekable (offset : ℕ) : Prop :=
  offset < 2 ^ 63 ∧ 0 ≤ (BitVec.ofNat 32 offset).toInt

instance (offset : ℕ) : Decidable (Seekable offset) :=
  inferInstanceAs (Decidable (_ ∧ _))

/-- The number in `n` bytes of the file. -/
def number (file : List BYTE) (offset n : ℕ) : ℕ :=
  LittleEndian.decode (load file offset n)

/-! ## Loading -/

/-- The offset of the table's entry with an index. -/
def entryOffset (itemOffset i : ℕ) : ℕ := itemOffset + i * itemSize

/-- The loop of `nv_cache_init` over the items: the next entry of the
table, and its data from the file's position on. -/
def loadItems (file : List BYTE) : ℕ → ℕ → ℕ → Option (List Item)
  | 0, _, _ => some []
  | n + 1, entry, offset =>
      let size := number file (entry + 16) 8
      if Seekable (offset + size) then
        (loadItems file n (entry + itemSize) (offset + size)).map
          (⟨BitVec.ofNat 64 (number file entry 8), load file offset size⟩ :: ·)
      else none

/-- `nv_cache_init`, on a file just opened. -/
def nvCacheInit (file : List BYTE) : Option Cache :=
  let itemOffset := number file 0 4
  let total := number file 4 4
  let dataOffset := number file 8 8
  let dataSize := number file 16 8
  if file.length < headSize then none
  else if maxNvItemNum < total then none
  -- an empty table has its header cleared, and then no data
  else if total = 0 then none
  else if dataSize = 0 then none
  else if ¬ Seekable itemOffset then none
  else if ¬ Seekable dataOffset then none
  else (loadItems file total itemOffset dataOffset).map (⟨itemOffset, dataOffset, dataSize, ·⟩)

/-! ## Setting -/

/-- A call of `set_nv_item`, and what nobody has written of the structures
it writes: the flag of a new item and where the allocator put things. -/
structure SetCall where
  /-- `nv_id`. -/
  id : BitVec 64
  /-- `nv_data_buf`, of `size` bytes. -/
  data : List BYTE
  /-- `item_flag`, and the padding behind it. -/
  flag : ℕ
  /-- The pointer to the new item's data. -/
  itemData : ℕ
  /-- The pointer to the table. -/
  table : ℕ

namespace Cache

/-- The sizes of the first items. -/
def sizes (c : Cache) (n : ℕ) : ℕ :=
  ((c.items.take n).map (·.data.length)).sum

/-- The bytes of all items. -/
def total (c : Cache) : ℕ := c.sizes c.items.length

/-- The value of an id, for the caller of `get_nv_item`. -/
def get (c : Cache) (id : BitVec 64) : Option (List BYTE) :=
  (c.items.find? (·.id = id)).map (·.data)

/-- The header, as it stands in memory. -/
def header (c : Cache) (table : ℕ) : List BYTE :=
  LittleEndian.encode 4 c.itemOffset ++ LittleEndian.encode 4 c.items.length ++
    LittleEndian.encode 8 c.dataOffset ++ LittleEndian.encode 8 c.dataSize ++
    LittleEndian.encode 8 table

/-- The offset behind the data. -/
def dataEnd (c : Cache) : ℕ := (c.dataOffset + c.dataSize) % 2 ^ 64

/-- The cache with a new item. -/
def add (c : Cache) (item : Item) : Cache :=
  { c with items := c.items ++ [item], dataSize := (c.dataSize + item.data.length) % 2 ^ 64 }

end Cache

/-- An entry of the table, as it stands in memory. -/
def Item.entry (item : Item) (flag itemData : ℕ) : List BYTE :=
  LittleEndian.encode 8 item.id.toNat ++ LittleEndian.encode 8 flag ++
    LittleEndian.encode 8 item.data.length ++ LittleEndian.encode 8 itemData

/-- `modify_nv_item`, where it succeeds. The offset is an `int`. -/
def modifyNvItem (s : Store) (call : SetCall) (index : ℕ) : Option Store :=
  match s.cache.items[index]? with
  | none => none
  | some item =>
      if call.data.length ≠ item.data.length then none
      else
        let offset := (BitVec.ofNat 32 (s.cache.dataOffset + s.cache.sizes index)).toInt
        if offset < 0 then none
        else some
          { cache := { s.cache with items := s.cache.items.set index { item with data := call.data } }
            file := write s.file offset.toNat call.data }

/-- `add_nv_item`, where it succeeds: the new entry is written, then the
data, then the header. -/
def addNvItem (s : Store) (call : SetCall) : Option Store :=
  let item : Item := ⟨call.id, call.data⟩
  let entry := entryOffset s.cache.itemOffset s.cache.items.length
  let offset := s.cache.dataEnd
  if ¬ Seekable entry then none
  else if ¬ Seekable offset then none
  else
    let file := write s.file entry (item.entry call.flag call.itemData)
    let file := write file offset item.data
    some ⟨s.cache.add item, write file 0 ((s.cache.add item).header call.table)⟩

/-- `set_nv_item`, where it succeeds. -/
def setNvItem (s : Store) (call : SetCall) : Option Store :=
  match s.cache.items.findIdx? (·.id = call.id) with
  | some index => modifyNvItem s call index
  | none => addNvItem s call

/-- A call of a run; one that fails is no part of it. -/
def step (s : Store) (call : SetCall) : Store :=
  (setNvItem s call).getD s

/-! ## The cache and the file -/

/-- **The cache and the file agree**: the file can be loaded again, and
gives every id the value it has in the cache. -/
def Agrees (s : Store) : Prop :=
  ∃ c, nvCacheInit s.file = some c ∧ ∀ id, c.get id = s.cache.get id

/-- The areas of a cache with so many items and bytes of data. -/
def HeadApart (c : Cache) (items bytes : ℕ) : Prop :=
  File.Apart 0 headSize c.itemOffset (items * itemSize) ∧
    File.Apart 0 headSize c.dataOffset bytes

/-- An item's new data overwrites data only. -/
def FitsModify (c : Cache) (index : ℕ) (bytes : ℕ) : Prop :=
  File.Apart (c.dataOffset + c.sizes index) bytes 0 headSize ∧
    File.Apart (c.dataOffset + c.sizes index) bytes c.itemOffset (c.items.length * itemSize) ∧
    c.dataOffset + c.sizes index < 2 ^ 32

/-- A new item's entry and data overwrite nothing, nor does the header;
the data is where it will be looked for; and there are not too many items
to be loaded. -/
def FitsAdd (c : Cache) (bytes : ℕ) : Prop :=
  c.items.length + 1 ≤ maxNvItemNum ∧
    (bytes = 0 ∨ c.dataSize = c.total) ∧
    HeadApart c (c.items.length + 1) (c.total + bytes) ∧
    File.Apart (entryOffset c.itemOffset c.items.length) itemSize c.dataOffset (c.total + bytes) ∧
    File.Apart c.dataEnd bytes c.itemOffset ((c.items.length + 1) * itemSize) ∧
    c.dataSize + bytes < 2 ^ 64 ∧ Seekable (c.dataOffset + c.total + bytes)

/-- **The call fits** the cache it finds. -/
def Fits (s : Store) (call : SetCall) : Prop :=
  match s.cache.items.findIdx? (·.id = call.id) with
  | some index => FitsModify s.cache index call.data.length
  | none => FitsAdd s.cache call.data.length

/-! ## What is loaded -/

theorem number_lt (file : List BYTE) (offset n : ℕ) : number file offset n < 256 ^ n := by
  have h := LittleEndian.decode_lt (load file offset n)
  rwa [load, File.length_load] at h

namespace Cache

variable (c : Cache)

variable {item : Item}

theorem sizes_succ {i : ℕ} (h : c.items[i]? = some item) :
    c.sizes (i + 1) = c.sizes i + item.data.length := by
  unfold sizes
  rw [take_add_one, h, map_append, sum_append]
  rfl

theorem sizes_mono {i j : ℕ} (h : i ≤ j) : c.sizes i ≤ c.sizes j := by
  obtain ⟨k, rfl⟩ : ∃ k, j = i + k := ⟨j - i, by omega⟩
  unfold sizes
  rw [take_add, map_append, sum_append]
  exact Nat.le_add_right _ _

theorem sizes_add_le {i j : ℕ} (h : c.items[i]? = some item) (hij : i < j) :
    c.sizes i + item.data.length ≤ c.sizes j := by
  rw [← c.sizes_succ h]
  exact c.sizes_mono hij

theorem sizes_le_total {i : ℕ} (h : c.items[i]? = some item) :
    c.sizes i + item.data.length ≤ c.total := by
  have hi : i < c.items.length := (List.getElem?_eq_some_iff.mp h).1
  exact c.sizes_add_le h hi

end Cache

/-- An item stands in the file: its entry, its data, and a position behind
it. -/
structure Stands (file : List BYTE) (entry offset : ℕ) (item : Item) : Prop where
  id : number file entry 8 = item.id.toNat
  size : number file (entry + 16) 8 = item.data.length
  data : load file offset item.data.length = item.data
  seek : Seekable (offset + item.data.length)

variable {file bytes : List BYTE} {offset : ℕ} {item : Item} {c : Cache} {call : SetCall}

/-- The first item of the loop. -/
theorem stands_first_iff {entry : ℕ} :
    Stands file entry offset item ↔ Seekable (offset + number file (entry + 16) 8) ∧
      item = ⟨BitVec.ofNat 64 (number file entry 8),
        load file offset (number file (entry + 16) 8)⟩ := by
  constructor
  · rintro ⟨hid, hsize, hdata, hseek⟩
    refine ⟨by rw [hsize]; exact hseek, ?_⟩
    rw [hid, hsize, hdata, BitVec.ofNat_toNat, BitVec.setWidth_eq]
  · rintro ⟨hseek, rfl⟩
    have hlen : (load file offset (number file (entry + 16) 8)).length =
        number file (entry + 16) 8 := File.length_load 0 file offset _
    have hid : number file entry 8 < 2 ^ 64 :=
      Nat.lt_of_lt_of_eq (number_lt file entry 8) (by decide)
    constructor
    · rw [BitVec.toNat_ofNat, Nat.mod_eq_of_lt hid]
    · rw [hlen]
    · rw [hlen]
    · rw [hlen]
      exact hseek

theorem entryOffset_succ (entry i : ℕ) :
    entryOffset (entry + itemSize) i = entryOffset entry (i + 1) := by
  unfold entryOffset
  rw [Nat.succ_mul]
  omega

/-- **What the loop over the items loads.** -/
theorem loadItems_eq_some_iff {n entry : ℕ} {items : List Item} :
    loadItems file n entry offset = some items ↔
      items.length = n ∧ ∀ i item, items[i]? = some item →
        Stands file (entryOffset entry i)
          (offset + ((items.take i).map (·.data.length)).sum) item := by
  induction n generalizing entry offset items with
  | zero =>
    rw [loadItems, some.injEq]
    constructor
    · rintro rfl
      exact ⟨rfl, fun i item h => by simp at h⟩
    · rintro ⟨h, -⟩
      exact (length_eq_zero_iff.mp h).symm
  | succ n ih =>
    have hzero : entryOffset entry 0 = entry := by
      rw [entryOffset, Nat.zero_mul, Nat.add_zero]
    cases items with
    | nil =>
      rw [loadItems]
      constructor
      · intro h
        split_ifs at h
        obtain ⟨rest, -, hrest⟩ := map_eq_some_iff.mp h
        cases hrest
      · rintro ⟨h, -⟩
        cases h
    | cons item items =>
      -- the first item, and the others
      have hloop : loadItems file (n + 1) entry offset = some (item :: items) ↔
          Stands file entry offset item ∧ loadItems file n (entry + itemSize)
            (offset + number file (entry + 16) 8) = some items := by
        rw [loadItems, stands_first_iff]
        constructor
        · intro h
          split_ifs at h with hseek
          obtain ⟨rest, hrest, heq⟩ := map_eq_some_iff.mp h
          rw [List.cons.injEq] at heq
          obtain ⟨rfl, rfl⟩ := heq
          exact ⟨⟨hseek, rfl⟩, hrest⟩
        · rintro ⟨⟨hseek, hitem⟩, hrest⟩
          rw [if_pos hseek, hrest, hitem]
          rfl
      rw [hloop, ih, length_cons]
      constructor
      · rintro ⟨hfirst, hlen, hall⟩
        refine ⟨by rw [hlen], ?_⟩
        intro i item' hi
        cases i with
        | zero =>
          rw [getElem?_cons_zero, some.injEq] at hi
          rw [hzero, take_zero, map_nil, sum_nil, Nat.add_zero, ← hi]
          exact hfirst
        | succ i =>
          rw [getElem?_cons_succ] at hi
          have h := hall i item' hi
          rw [entryOffset_succ, hfirst.size] at h
          rw [take_succ_cons, map_cons, sum_cons, ← Nat.add_assoc]
          exact h
      · rintro ⟨hlen, hall⟩
        have hfirst := hall 0 item getElem?_cons_zero
        rw [hzero, take_zero, map_nil, sum_nil, Nat.add_zero] at hfirst
        refine ⟨hfirst, Nat.succ.inj hlen, ?_⟩
        intro i item' hi
        have h := hall (i + 1) item' (by rw [getElem?_cons_succ]; exact hi)
        rw [take_succ_cons, map_cons, sum_cons, ← Nat.add_assoc] at h
        rw [entryOffset_succ, hfirst.size]
        exact h

/-- **The file holds a cache.** -/
structure Laid (file : List BYTE) (c : Cache) : Prop where
  long : headSize ≤ file.length
  itemOffset : number file 0 4 = c.itemOffset
  total : number file 4 4 = c.items.length
  dataOffset : number file 8 8 = c.dataOffset
  dataSize : number file 16 8 = c.dataSize
  few : c.items.length ≤ maxNvItemNum
  nonempty : c.items.length ≠ 0
  hasData : c.dataSize ≠ 0
  seekItems : Seekable c.itemOffset
  seekData : Seekable c.dataOffset
  stands : ∀ i item, c.items[i]? = some item →
    Stands file (entryOffset c.itemOffset i) (c.dataOffset + c.sizes i) item

/-- **A file loads exactly the cache it holds.** -/
theorem nvCacheInit_eq_some_iff :
    nvCacheInit file = some c ↔ Laid file c := by
  unfold nvCacheInit
  dsimp only
  constructor
  · intro h
    split_ifs at h with h1 h2 h3 h4 h5 h6
    obtain ⟨items, hitems, hc⟩ := map_eq_some_iff.mp h
    subst hc
    obtain ⟨hlen, hall⟩ := loadItems_eq_some_iff.mp hitems
    exact {
      long := by omega
      itemOffset := rfl
      total := hlen.symm
      dataOffset := rfl
      dataSize := rfl
      few := by
        show items.length ≤ _
        omega
      nonempty := by
        show items.length ≠ 0
        omega
      hasData := h4
      seekItems := h5
      seekData := h6
      stands := hall }
  · intro h
    have hitems : loadItems file c.items.length c.itemOffset c.dataOffset = some c.items :=
      loadItems_eq_some_iff.mpr ⟨rfl, h.stands⟩
    rw [h.itemOffset, h.total, h.dataOffset, h.dataSize]
    rw [if_neg (by have := h.long; omega), if_neg (by have := h.few; omega), if_neg h.nonempty,
      if_neg h.hasData, if_neg (not_not.mpr h.seekItems), if_neg (not_not.mpr h.seekData), hitems]
    rfl

theorem Laid.agrees {s : Store} (h : Laid s.file s.cache) : Agrees s :=
  ⟨s.cache, nvCacheInit_eq_some_iff.mpr h, fun _ => rfl⟩

/-! ## A call keeps the file's cache -/

theorem number_write_apart (file : List BYTE) {offset' n : ℕ}
    (h : File.Apart offset bytes.length offset' n) :
    number (write file offset bytes) offset' n = number file offset' n := by
  unfold number load write
  rw [File.load_write_apart 0 file h]

theorem load_write_apart (file : List BYTE) {offset' n : ℕ}
    (h : File.Apart offset bytes.length offset' n) :
    load (write file offset bytes) offset' n = load file offset' n :=
  File.load_write_apart 0 file h

theorem length_le_write (file : List BYTE) (offset : ℕ) (bytes : List BYTE) :
    file.length ≤ (write file offset bytes).length :=
  File.length_le_write 0 file offset bytes

/-- An item stands where a write does not reach it. -/
theorem Stands.write {entry offset' : ℕ} (h : Stands file entry offset item)
    (hentry : File.Apart offset' bytes.length entry itemSize)
    (hdata : File.Apart offset' bytes.length offset item.data.length) :
    Stands (write file offset' bytes) entry offset item where
  id := by
    rw [number_write_apart file (hentry.mono (Nat.le_refl _) (Nat.le_refl _) (Nat.le_refl _)
      (by unfold itemSize; omega))]
    exact h.id
  size := by
    rw [number_write_apart file (hentry.mono (Nat.le_refl _) (Nat.le_refl _) (by omega)
      (by unfold itemSize; omega))]
    exact h.size
  data := by
    rw [load_write_apart file hdata]
    exact h.data
  seek := h.seek

theorem entry_in_table (itemOffset : ℕ) {i n : ℕ} (h : i < n) :
    itemOffset ≤ entryOffset itemOffset i ∧
      entryOffset itemOffset i + itemSize ≤ itemOffset + n * itemSize := by
  have : (i + 1) * itemSize ≤ n * itemSize := Nat.mul_le_mul_right _ h
  rw [Nat.succ_mul] at this
  unfold entryOffset
  omega

/-- **An item's new data** changes no other item, and is loaded again. -/
theorem Laid.modifyNvItem {s s' : Store} {index : ℕ} (h : Laid s.file s.cache)
    (hfit : FitsModify s.cache index call.data.length)
    (hset : modifyNvItem s call index = some s') :
    Laid s'.file s'.cache := by
  obtain ⟨hhead, htable, hint⟩ := hfit
  unfold Nv.modifyNvItem at hset
  cases hitem : s.cache.items[index]? with
  | none => rw [hitem] at hset; cases hset
  | some item =>
    rw [hitem] at hset
    dsimp only at hset
    split_ifs at hset with hsize hneg
    cases hset
    have hlen : call.data.length = item.data.length := not_not.mp hsize
    -- the `int` is the offset itself
    have hoffset : (BitVec.ofNat 32 (s.cache.dataOffset + s.cache.sizes index)).toInt.toNat =
        s.cache.dataOffset + s.cache.sizes index := by
      have hnn := Int.not_lt.mp hneg
      rw [BitVec.toInt_eq_toNat_cond, BitVec.toNat_ofNat, Nat.mod_eq_of_lt hint] at hnn ⊢
      split_ifs at hnn ⊢ with hbit
      · rfl
      · omega
    rw [hoffset]
    have hhead' (offset n : ℕ) (hn : offset + n ≤ headSize) :
        File.Apart (s.cache.dataOffset + s.cache.sizes index) call.data.length offset n :=
      hhead.mono (Nat.le_refl _) (Nat.le_refl _) (Nat.zero_le _) (by omega)
    have hsizes (i : ℕ) : Cache.sizes { s.cache with
        items := s.cache.items.set index { item with data := call.data } } i =
        s.cache.sizes i := by
      refine congrArg List.sum (ext_getElem? fun j => ?_)
      rw [getElem?_map, getElem?_map]
      rcases Nat.lt_or_ge j i with hj | hj
      · rw [getElem?_take_of_lt hj, getElem?_take_of_lt hj, getElem?_set]
        split_ifs with hji hin
        · rw [← hji, hitem]
          exact congrArg some hlen
        · rw [← hji, getElem?_eq_none (Nat.not_lt.mp hin)]
        · rfl
      · rw [getElem?_take_eq_none hj, getElem?_take_eq_none hj]
    exact {
      long := Nat.le_trans h.long (length_le_write _ _ _)
      itemOffset := by
        rw [number_write_apart _ (hhead' 0 4 (by decide))]
        exact h.itemOffset
      total := by
        rw [number_write_apart _ (hhead' 4 4 (by decide)), length_set]
        exact h.total
      dataOffset := by
        rw [number_write_apart _ (hhead' 8 8 (by decide))]
        exact h.dataOffset
      dataSize := by
        rw [number_write_apart _ (hhead' 16 8 (by decide))]
        exact h.dataSize
      few := by
        rw [length_set]
        exact h.few
      nonempty := by
        rw [length_set]
        exact h.nonempty
      hasData := h.hasData
      seekItems := h.seekItems
      seekData := h.seekData
      stands := by
        intro i item' hi
        rw [hsizes]
        dsimp only at hi ⊢
        have hii := (List.getElem?_eq_some_iff.mp hi).1
        rw [length_set] at hii
        obtain ⟨hbegin, hend⟩ := entry_in_table s.cache.itemOffset hii
        have hentry : File.Apart (s.cache.dataOffset + s.cache.sizes index) call.data.length
            (entryOffset s.cache.itemOffset i) itemSize :=
          htable.mono (Nat.le_refl _) (Nat.le_refl _) hbegin hend
        by_cases hii' : index = i
        · -- the item itself
          subst hii'
          rw [getElem?_set_self hii, some.injEq] at hi
          subst hi
          have hold := h.stands _ _ hitem
          exact {
            id := by
              rw [number_write_apart _ (hentry.mono (Nat.le_refl _) (Nat.le_refl _)
                (Nat.le_refl _) (by unfold itemSize; omega))]
              exact hold.id
            size := by
              rw [number_write_apart _ (hentry.mono (Nat.le_refl _) (Nat.le_refl _) (by omega)
                (by unfold itemSize; omega))]
              exact hold.size.trans hlen.symm
            data := File.load_write_self 0 _ _ _
            seek := by
              show Seekable (_ + call.data.length)
              rw [hlen]
              exact hold.seek }
        · rw [getElem?_set_ne hii'] at hi
          refine (h.stands i item' hi).write hentry ?_
          unfold File.Apart
          rcases Nat.lt_or_gt_of_ne hii' with hlt | hgt
          · have := s.cache.sizes_add_le hitem hlt
            omega
          · have := s.cache.sizes_add_le hi hgt
            omega }

@[simp] theorem Item.length_entry (item : Item) (flag itemData : ℕ) :
    (item.entry flag itemData).length = itemSize := by
  simp [Item.entry, itemSize]

@[simp] theorem Cache.length_header (c : Cache) (table : ℕ) :
    (c.header table).length = headSize := by
  simp [Cache.header, headSize]

theorem number_write (file : List BYTE) (offset : ℕ) (bytes : List BYTE) {i n : ℕ}
    (h : i + n ≤ bytes.length) :
    number (write file offset bytes) (offset + i) n =
      LittleEndian.decode ((bytes.drop i).take n) := by
  unfold number load write
  rw [← File.load_part 0 _ offset h, File.load_write_self]

/-- **A header that is written is read back.** -/
theorem number_header (file : List BYTE) (table : ℕ) (h1 : c.itemOffset < 256 ^ 4)
    (h2 : c.items.length < 256 ^ 4) (h3 : c.dataOffset < 256 ^ 8) (h4 : c.dataSize < 256 ^ 8) :
    number (write file 0 (c.header table)) 0 4 = c.itemOffset ∧
      number (write file 0 (c.header table)) 4 4 = c.items.length ∧
      number (write file 0 (c.header table)) 8 8 = c.dataOffset ∧
      number (write file 0 (c.header table)) 16 8 = c.dataSize := by
  have hpart (i n v : ℕ) (hn : i + n ≤ headSize) (hv : v < 256 ^ n)
      (hbytes : ((c.header table).drop i).take n = LittleEndian.encode n v) :
      number (write file 0 (c.header table)) i n = v := by
    have h := number_write file 0 (c.header table) (by rw [Cache.length_header]; exact hn)
    rwa [Nat.zero_add, hbytes, LittleEndian.decode_encode_of_lt hv] at h
  refine ⟨hpart 0 4 _ (by decide) h1 ?_, hpart 4 4 _ (by decide) h2 ?_,
    hpart 8 8 _ (by decide) h3 ?_, hpart 16 8 _ (by decide) h4 ?_⟩
  · simp [Cache.header]
  · simp [Cache.header]
  · simp [Cache.header, drop_append, drop_eq_nil_of_le]
  · simp [Cache.header, drop_append, drop_eq_nil_of_le]

/-- And so is an entry. -/
theorem number_entry (file : List BYTE) (offset : ℕ) (flag itemData : ℕ)
    (h : item.data.length < 256 ^ 8) :
    number (write file offset (item.entry flag itemData)) offset 8 = item.id.toNat ∧
      number (write file offset (item.entry flag itemData)) (offset + 16) 8 =
        item.data.length := by
  have hid : item.id.toNat < 256 ^ 8 := Nat.lt_of_lt_of_eq item.id.isLt (by decide)
  have hpart (i v : ℕ) (hn : i + 8 ≤ itemSize) (hv : v < 256 ^ 8)
      (hbytes : ((item.entry flag itemData).drop i).take 8 = LittleEndian.encode 8 v) :
      number (write file offset (item.entry flag itemData)) (offset + i) 8 = v := by
    rw [number_write file offset _ (by rw [Item.length_entry]; exact hn), hbytes,
      LittleEndian.decode_encode_of_lt hv]
  refine ⟨hpart 0 _ (by decide) hid ?_, hpart 16 _ (by decide) h ?_⟩
  · simp [Item.entry]
  · simp [Item.entry, drop_append, drop_eq_nil_of_le]

theorem Cache.sizes_add (c : Cache) (item : Item) {i : ℕ} (h : i ≤ c.items.length) :
    (c.add item).sizes i = c.sizes i := by
  unfold Cache.sizes Cache.add
  rw [take_append_of_le_length h]

/-- An item stands once its entry and its data are written. -/
theorem stands_written (file : List BYTE) {entry place : ℕ} (flag itemData : ℕ)
    (hlen : item.data.length < 256 ^ 8) (hplace : item.data.length = 0 ∨ place = offset)
    (hapart : File.Apart place item.data.length entry itemSize)
    (hseek : Seekable (offset + item.data.length)) :
    Stands (write (write file entry (item.entry flag itemData)) place item.data) entry offset
      item := by
  obtain ⟨hid, hsize⟩ := number_entry file entry flag itemData hlen
  refine ⟨?_, ?_, ?_, hseek⟩
  · rw [number_write_apart _ (hapart.mono (Nat.le_refl _) (Nat.le_refl _) (Nat.le_refl _)
      (by unfold itemSize; omega))]
    exact hid
  · rw [number_write_apart _ (hapart.mono (Nat.le_refl _) (Nat.le_refl _) (by omega)
      (by unfold itemSize; omega))]
    exact hsize
  · rcases hplace with hnone | rfl
    · rw [length_eq_zero_iff.mp hnone]
      rfl
    · exact File.load_write_self 0 _ _ _

/-- What a new item changes of the cache, where it fits. -/
theorem FitsAdd.add (h : FitsAdd c item.data.length) :
    (c.add item).items.length = c.items.length + 1 ∧
      (c.add item).dataSize = c.dataSize + item.data.length ∧
      (item.data.length = 0 ∨ c.dataEnd = c.dataOffset + c.total) := by
  obtain ⟨-, hsum, -, -, -, hsize, hseek, -⟩ := h
  refine ⟨by rw [Cache.add, length_append, length_singleton], Nat.mod_eq_of_lt hsize, ?_⟩
  refine hsum.imp_right fun hsum => ?_
  unfold Cache.dataEnd
  rw [hsum]
  exact Nat.mod_eq_of_lt (by omega)

/-- The items stand, those that were there and the new one. -/
theorem Laid.stands_add (h : Laid file c) (hfit : FitsAdd c item.data.length)
    (flag itemData table : ℕ) {i : ℕ} {item' : Item} (hi : (c.add item).items[i]? = some item') :
    Stands (write (write (write file (entryOffset c.itemOffset c.items.length)
        (item.entry flag itemData)) c.dataEnd item.data) 0 ((c.add item).header table))
      (entryOffset c.itemOffset i) (c.dataOffset + (c.add item).sizes i) item' := by
  obtain ⟨hcount, -, hplace⟩ := hfit.add
  obtain ⟨-, -, ⟨hheadItems, hheadData⟩, hentryData, hdataItems, hsize, hseek⟩ := hfit
  have hin := (List.getElem?_eq_some_iff.mp hi).1
  rw [hcount] at hin
  rw [c.sizes_add item (Nat.le_of_lt_succ hin)]
  obtain ⟨hbegin, hend⟩ := entry_in_table c.itemOffset hin
  have hheadEntry : File.Apart 0 ((c.add item).header table).length
      (entryOffset c.itemOffset i) itemSize := by
    rw [Cache.length_header]
    exact hheadItems.mono (Nat.le_refl _) (Nat.le_refl _) hbegin hend
  have hdataEntry : File.Apart c.dataEnd item.data.length (entryOffset c.itemOffset i) itemSize :=
    hdataItems.mono (Nat.le_refl _) (Nat.le_refl _) hbegin hend
  rcases Nat.lt_or_ge i c.items.length with hold | hnew
  · -- an item that was there
    rw [Cache.add, getElem?_append_left hold] at hi
    have hle := c.sizes_le_total hi
    obtain ⟨-, hend'⟩ := entry_in_table c.itemOffset hold
    refine (((h.stands i item' hi).write ?_ ?_).write hdataEntry ?_).write hheadEntry ?_
    · rw [Item.length_entry]
      unfold File.Apart entryOffset at *
      omega
    · rw [Item.length_entry]
      exact hentryData.mono (Nat.le_refl _) (Nat.le_refl _) (by omega) (by omega)
    · unfold File.Apart
      omega
    · rw [Cache.length_header]
      exact hheadData.mono (Nat.le_refl _) (Nat.le_refl _) (by omega) (by omega)
  · -- the new one
    obtain rfl : i = c.items.length := by omega
    rw [Cache.add, getElem?_append_right (Nat.le_refl _), Nat.sub_self,
      getElem?_cons_zero, some.injEq] at hi
    subst hi
    refine (stands_written file flag itemData (by omega) hplace hdataEntry hseek).write
      hheadEntry ?_
    rw [Cache.length_header]
    exact hheadData.mono (Nat.le_refl _) (Nat.le_refl _) (by omega) (by omega)

/-- **A new item** changes no other, and is loaded with them. -/
theorem Laid.addNvItem {s s' : Store} (h : Laid s.file s.cache)
    (hfit : FitsAdd s.cache call.data.length) (hset : addNvItem s call = some s') :
    Laid s'.file s'.cache := by
  unfold Nv.addNvItem at hset
  dsimp only at hset
  split_ifs at hset with h1 h2
  cases hset
  have hfit' : FitsAdd s.cache (Item.mk call.id call.data).data.length := hfit
  obtain ⟨hcount, hdataSize, -⟩ := hfit'.add
  have hfew := hfit.1
  have hsize := hfit.2.2.2.2.2.1
  have hitemOffset : s.cache.itemOffset < 256 ^ 4 := h.itemOffset ▸ number_lt _ _ _
  have hdataOffset : s.cache.dataOffset < 256 ^ 8 := h.dataOffset ▸ number_lt _ _ _
  obtain ⟨hh1, hh2, hh3, hh4⟩ := number_header
    (write (write s.file (entryOffset s.cache.itemOffset s.cache.items.length)
      (Item.entry ⟨call.id, call.data⟩ call.flag call.itemData)) s.cache.dataEnd call.data)
    (c := s.cache.add ⟨call.id, call.data⟩) call.table hitemOffset
    (by unfold maxNvItemNum at hfew; omega) hdataOffset
    (hdataSize ▸ Nat.lt_of_lt_of_eq hsize (by decide))
  refine { long := ?long, itemOffset := hh1, total := hh2, dataOffset := hh3, dataSize := hh4,
           few := hcount ▸ hfew, nonempty := hcount ▸ Nat.succ_ne_zero _, hasData := ?hasData,
           seekItems := h.seekItems, seekData := h.seekData, stands := ?stands }
  case long =>
    dsimp only
    exact Nat.le_trans h.long (Nat.le_trans (length_le_write _ _ _)
      (Nat.le_trans (length_le_write _ _ _) (length_le_write _ _ _)))
  case hasData =>
    have hpos := Nat.pos_of_ne_zero h.hasData
    exact hdataSize ▸ (Nat.add_pos_left hpos _).ne'
  case stands => exact fun i item hi => h.stands_add hfit' _ _ _ hi

/-- **A call that fits keeps the file's cache.** -/
theorem Laid.setNvItem {s s' : Store} (h : Laid s.file s.cache) (hfit : Fits s call)
    (hset : setNvItem s call = some s') : Laid s'.file s'.cache := by
  unfold Nv.setNvItem at hset
  unfold Fits at hfit
  cases hfind : s.cache.items.findIdx? (·.id = call.id) with
  | some index =>
    rw [hfind] at hset hfit
    exact h.modifyNvItem hfit hset
  | none =>
    rw [hfind] at hset hfit
    exact h.addNvItem hfit hset

open Run

/-- **When the cache and the file agree.** From any cache that was loaded,
in every run of successful calls that fit, the file can be loaded again
after every call and gives every id its value. -/
theorem agrees_of_fits {file : List BYTE} {cache : Cache} (hload : nvCacheInit file = some cache)
    {calls : List SetCall}
    (hok : Throughout step (fun s call => (setNvItem s call).isSome) ⟨cache, file⟩ calls)
    (hfit : Throughout step Fits ⟨cache, file⟩ calls) :
    Always step Agrees ⟨cache, file⟩ calls := by
  have hlaid : Always step (fun s => Laid s.file s.cache) ⟨cache, file⟩ calls := by
    refine Always.of_invariant ?_ (nvCacheInit_eq_some_iff.mp hload) (hok.and hfit)
    rintro s call h ⟨hsome, hfits⟩
    obtain ⟨s', hs'⟩ := isSome_iff_exists.mp hsome
    show Laid ((setNvItem s call).getD s).file ((setNvItem s call).getD s).cache
    rw [hs', getD_some]
    exact h.setNvItem hfits hs'
  exact hlaid.mono fun s h => h.agrees

/-- A file of one item, whose data stands at an offset. -/
def oneItem (dataOffset : ℕ) : Store :=
  let cache : Cache := ⟨headSize, dataOffset, 1, [⟨7, [9]⟩]⟩
  ⟨cache, write (cache.header 0 ++ Item.entry ⟨7, [9]⟩ 0 0) dataOffset [9]⟩

/-- Room was left behind the table. -/
theorem agrees_oneItem :
    Always step Agrees (oneItem 128) [⟨7, [1], 0, 0, 0⟩, ⟨2, [5], 0, 0, 0⟩] := by
  refine agrees_of_fits (by decide +kernel) ⟨by decide +kernel, by decide +kernel, trivial⟩
    ⟨?_, ?_, trivial⟩
  · show FitsModify _ 0 1
    unfold FitsModify
    decide
  · show FitsAdd _ 1
    unfold FitsAdd HeadApart
    decide

/-- **No room was left**: the new item's entry overwrites the data of the
one that was there. -/
theorem not_agrees_oneItem :
    nvCacheInit (oneItem 64).file = some (oneItem 64).cache ∧
      (setNvItem (oneItem 64) ⟨2, [5], 0, 0, 0⟩).isSome ∧
      ¬ Always step Agrees (oneItem 64) [⟨2, [5], 0, 0, 0⟩] := by
  refine ⟨by decide +kernel, by decide +kernel, ?_⟩
  rintro ⟨-, c, hc, hget⟩
  have hload : nvCacheInit (step (oneItem 64) ⟨2, [5], 0, 0, 0⟩).file =
      some ⟨32, 64, 2, [⟨7, [2]⟩, ⟨0x502, [5]⟩]⟩ := by decide +kernel
  rw [hload, some.injEq] at hc
  have h := hget 7
  rw [← hc] at h
  exact absurd h (by decide)

end ExynosVendor.Nv
