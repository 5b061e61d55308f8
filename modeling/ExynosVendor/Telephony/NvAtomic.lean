import ExynosVendor.Common.Heap
import ExynosVendor.Telephony.Nv

/-!
# The NV cache in memory

`set_nv_item` of `libnv/nv.c` with its error exits: the cache as the header
and the blocks it points to, and what the system answers to every step. A
program that touches what is not there has no value here.

`Unchanged` says what is to hold behind a call that fails, and `Harmless`
which failing calls it holds of.
-/

namespace ExynosVendor.NvCache

open Ril (BYTE)
open Nv (itemSize)
open Option

/-- A pointer, or `NULL`. -/
abbrev Ptr := Option ℕ

/-- `struct nv_item`. -/
structure Entry where
  id : BitVec 64
  size : ℕ
  data : Ptr
  deriving DecidableEq

/-- What is allocated: a table of items, or the data of one. -/
inductive Block where
  | items (entries : List Entry)
  | data (bytes : List BYTE)
  deriving DecidableEq

/-- `nv_item_header`, and the memory. -/
structure Cache where
  /-- `nv_item_aera_offset`. -/
  itemOffset : ℕ
  /-- `total_nv_item_num`. -/
  total : ℕ
  /-- `nv_data_area_offset`. -/
  dataOffset : ℕ
  /-- `nv_data_area_size`. -/
  dataSize : ℕ
  /-- `nv_items`. -/
  items : Ptr
  heap : Heap Block
  deriving DecidableEq

/-- What the system answers while an item is set. -/
structure Answers where
  /-- What `pthread_mutex_lock` returns. -/
  lock : ℕ
  reallocs : Bool
  mallocs : Bool
  /-- What each `lseek` returns, in an `int`. -/
  seek : ℕ → ℤ → ℤ
  /-- What each `write` returns, in an `int`. -/
  write : ℕ → ℤ
  /-- What is in memory nobody has written. -/
  raw : Entry
  /-- The pointer that stands behind the table. -/
  behind : Ptr

namespace Cache

/-- The table `nv_items` points to. -/
def table (c : Cache) : Option (List Entry) :=
  match c.heap.get c.items with
  | some (.items entries) => some entries
  | _ => none

/-- `nv_items[i]`. -/
def entry (c : Cache) (i : ℕ) : Option Entry := c.table.bind (·[i]?)

/-- The first bytes of some data. -/
def bytes (c : Cache) (p : Ptr) (size : ℕ) : Option (List BYTE) :=
  match c.heap.get p with
  | some (.data bytes) => if size ≤ bytes.length then some (bytes.take size) else none
  | _ => none

/-- `memcpy` to some data. -/
def fill (c : Cache) (p : Ptr) (buf : List BYTE) : Option Cache :=
  match p, c.heap.get p with
  | some a, some (.data bytes) =>
      if buf.length ≤ bytes.length then
        some { c with heap := c.heap.put a (.data (buf ++ bytes.drop buf.length)) }
      else none
  | _, _ => none

/-- The loop that looks for an id, over so many items from one on. -/
def search (c : Cache) (id : BitVec 64) : ℕ → ℕ → Option (Option ℕ)
  | 0, _ => some none
  | n + 1, i => do
      let e ← c.entry i
      if e.id = id then some (some i) else c.search id n (i + 1)

/-- `get_nv_item`: the item's data, if there is one. -/
def getNvItem (c : Cache) (id : BitVec 64) : Option (Option (List BYTE)) := do
  match ← c.search id c.total 0 with
  | none => some none
  | some i =>
      let e ← c.entry i
      (c.bytes e.data e.size).map some

variable (a : Answers)

/-- The sizes of the first items. -/
def sizes (c : Cache) : ℕ → Option ℕ
  | 0 => some 0
  | n + 1 => do
      let e ← c.entry n
      (c.sizes n).map (· + e.size)

/-- `modify_nv_item`. The offset is an `int`. -/
def modifyNvItem (c : Cache) (buf : List BYTE) (index : ℕ) : Option (Cache × ℤ) := do
  let e ← c.entry index
  if buf.length ≠ e.size then some (c, -1)
  else
    let c ← c.fill e.data buf
    let before ← c.sizes index
    let offset := (BitVec.ofNat 32 (c.dataOffset + before)).toInt
    if a.seek 0 offset < 0 then some (c, -1)
    else if a.write 0 < 0 then some (c, -1)
    else some (c, 0)

def freeNvItems (c : Cache) : Option (Cache × ℤ) := do
  let heap ← c.heap.free c.items
  some ({ c with heap := heap }, -1)

/-- `free_nv_item_data`, for the item behind the last. -/
def freeNvItemData (c : Cache) : Option (Cache × ℤ) := do
  let entries ← c.table
  let heap ← c.heap.free ((entries[c.total]?).elim a.behind Entry.data)
  { c with heap := heap }.freeNvItems

/-- The items that `realloc` keeps. -/
def kept (c : Cache) : Option (List Entry) := if c.items = none then some [] else c.table

/-- `realloc` of the table for one more item, that succeeds. -/
def grow (c : Cache) : Option Cache := do
  let old ← c.kept
  let heap ← c.heap.free c.items
  let entries := old.take (c.total + 1) ++ List.replicate (c.total + 1 - old.length) a.raw
  some { c with items := some heap.length, heap := heap.alloc (.items entries) }

/-- Another content of the entry behind the last. -/
def putEntry (c : Cache) (e : Entry) : Option Cache :=
  match c.items, c.table with
  | some t, some entries =>
      if c.total < entries.length then
        some { c with heap := c.heap.put t (.items (entries.set c.total e)) }
      else none
  | _, _ => none

/-- `add_nv_item`, behind the allocations. -/
def syncNvItem (c : Cache) (size : ℕ) : Option (Cache × ℤ) :=
  if a.seek 0 (c.itemOffset + c.total * itemSize) < 0 then c.freeNvItemData a
  else if a.write 0 < 0 then c.freeNvItemData a
  else if a.seek 1 (c.dataOffset + c.dataSize) < 0 then c.freeNvItemData a
  else if a.write 1 < 0 then c.freeNvItemData a
  else
    let c := { c with total := c.total + 1, dataSize := c.dataSize + size }
    if a.seek 2 0 < 0 then c.freeNvItemData a
    else if a.write 2 < 0 then c.freeNvItemData a
    else some (c, 0)

/-- `add_nv_item`. `zero_alloc` clears what `malloc` gave it, also if that
is `NULL`. -/
def addNvItem (c : Cache) (buf : List BYTE) (id : BitVec 64) : Option (Cache × ℤ) :=
  if ¬ a.reallocs then some ({ c with items := none }, -1)
  else do
    let c ← c.grow a
    if ¬ a.mallocs then
      if buf ≠ [] then none
      else
        let c ← c.putEntry ⟨id, buf.length, none⟩
        c.freeNvItems
    else
      let data := c.heap.length
      let c ← { c with heap := c.heap.alloc (.data buf) }.putEntry ⟨id, buf.length, some data⟩
      c.syncNvItem a buf.length

/-- **`set_nv_item`.** -/
def setNvItem (c : Cache) (buf : Option (List BYTE)) (id : BitVec 64) : Option (Cache × ℤ) :=
  match buf with
  | none => some (c, -1)
  | some buf => do
      let found ← c.search id c.total 0
      if a.lock ≠ 0 then some (c, a.lock)
      else match found with
        | some index => c.modifyNvItem a buf index
        | none => c.addNvItem a buf id

end Cache

/-! ## What is to hold -/

/-- **The cache is valid**: `nv_items` points to a table of so many items,
and each of them to its data; or there is none, and no table. -/
def Valid (c : Cache) : Prop :=
  (c.items = none ∧ c.total = 0) ∨
    ∃ entries, c.table = some entries ∧ c.total ≤ entries.length ∧
      ∀ e ∈ entries.take c.total, ∃ bytes, c.heap.get e.data = some (.data bytes) ∧
        e.size ≤ bytes.length

/-- **What a call that fails leaves behind**: a valid cache with the same
items. -/
structure Unchanged (c c' : Cache) : Prop where
  valid : Valid c'
  same : ∀ id, c'.getNvItem id = c.getNvItem id

/-- **The condition.** The call is refused before anything is done; or the
item has the value already; or there are no items, and no memory for the
table of the first. -/
def Harmless (a : Answers) (c : Cache) (buf : Option (List BYTE)) (id : BitVec 64) : Prop :=
  match buf with
  | none => True
  | some buf =>
      match (c.search id c.total 0).join with
      | some i => ∀ e, c.entry i = some e →
          buf.length = e.size → c.bytes e.data e.size = some buf
      | none => c.total = 0 ∧ a.reallocs = false

/-! ## The table and the data -/

section Memory

variable {c c' : Cache} {id : BitVec 64} {p : Ptr} {buf : List BYTE}

theorem table_eq_some {entries : List Entry} :
    c.table = some entries ↔ c.heap.get c.items = some (.items entries) := by
  unfold Cache.table
  constructor
  · intro h
    split at h
    · next heq => rw [heq, some.inj h]
    · cases h
  · intro h
    rw [h]

theorem bytes_eq_some {size : ℕ} :
    c.bytes p size = some buf ↔
      ∃ bytes, c.heap.get p = some (.data bytes) ∧ size ≤ bytes.length ∧ bytes.take size = buf := by
  unfold Cache.bytes
  constructor
  · intro h
    split at h
    · next bytes heq =>
      split at h
      · next hle => exact ⟨bytes, heq, hle, some.inj h⟩
      · cases h
    · cases h
  · rintro ⟨bytes, heq, hle, rfl⟩
    rw [heq]
    dsimp only
    rw [if_pos hle]

theorem search_congr (h : c'.table = c.table) (id : BitVec 64) (n i : ℕ) :
    c'.search id n i = c.search id n i := by
  induction n generalizing i with
  | zero => rfl
  | succ n ih =>
    unfold Cache.search Cache.entry
    rw [h]
    exact Option.bind_congr fun e _ => by rw [ih]

/-- What is found has the id, and is the first that has. -/
theorem search_found {n k i : ℕ} (h : c.search id n k = some (some i)) :
    k ≤ i ∧ i < k + n ∧ ∃ e, c.entry i = some e ∧ e.id = id := by
  induction n generalizing k with
  | zero => cases h
  | succ n ih =>
    obtain ⟨e, he, hrest⟩ := bind_eq_some_iff.mp h
    split at hrest
    · next hid =>
      obtain rfl : k = i := some.inj (some.inj hrest)
      exact ⟨Nat.le_refl _, by omega, e, he, hid⟩
    · obtain ⟨hle, hlt, hfound⟩ := ih hrest
      exact ⟨by omega, by omega, hfound⟩

/-- What `memcpy` changes. -/
theorem fill_eq_some (h : c.fill p buf = some c') :
    ∃ a bytes, p = some a ∧ c.heap.get p = some (.data bytes) ∧ buf.length ≤ bytes.length ∧
      c' = { c with heap := c.heap.put a (.data (buf ++ bytes.drop buf.length)) } := by
  unfold Cache.fill at h
  split at h
  · next a bytes hget =>
    split at h
    · next hle => exact ⟨a, bytes, rfl, hget, hle, (some.inj h).symm⟩
    · cases h
  · cases h

theorem table_fill (h : c.fill p buf = some c') : c'.table = c.table := by
  obtain ⟨a, bytes, rfl, hget, -, rfl⟩ := fill_eq_some h
  unfold Cache.table
  dsimp only
  by_cases hitems : c.items = some a
  · rw [hitems, Heap.get_put_self hget, hget]
  · rw [Heap.get_put_ne hitems]

/-- Bytes just copied are read back, -/
theorem bytes_fill (h : c.fill p buf = some c') : c'.bytes p buf.length = some buf := by
  obtain ⟨a, old, rfl, hold, -, rfl⟩ := fill_eq_some h
  refine bytes_eq_some.mpr ⟨buf ++ old.drop buf.length, Heap.get_put_self hold _, ?_, ?_⟩
  · rw [List.length_append]
    exact Nat.le_add_right _ _
  · exact List.take_left

/-- and bytes that were there are no change. -/
theorem fill_same (h : c.fill p buf = some c') (hsame : c.bytes p buf.length = some buf) :
    c' = c := by
  obtain ⟨a, old, rfl, hold, -, rfl⟩ := fill_eq_some h
  obtain ⟨bytes, hget, -, htake⟩ := bytes_eq_some.mp hsame
  rw [hold] at hget
  cases hget
  have hcontent : buf ++ old.drop buf.length = old := by
    conv_rhs => rw [← List.take_append_drop buf.length old, htake]
  rw [hcontent, Heap.put_get hold]

theorem not_valid_freeNvItems {r : ℤ} (hitems : c.items ≠ none)
    (h : c.freeNvItems = some (c', r)) : ¬ Valid c' := by
  obtain ⟨heap, hfree, heq⟩ := bind_eq_some_iff.mp h
  cases heq
  rintro (⟨hnone, -⟩ | ⟨entries, htable, -⟩)
  · exact hitems hnone
  · have hgone := Heap.get_free_self hfree
    have hthere := table_eq_some.mp htable
    rw [hgone] at hthere
    cases hthere

theorem not_valid_freeNvItemData (a : Answers) {r : ℤ} (hitems : c.items ≠ none)
    (h : c.freeNvItemData a = some (c', r)) : ¬ Valid c' := by
  obtain ⟨entries, -, hrest⟩ := bind_eq_some_iff.mp h
  obtain ⟨heap, -, hfree⟩ := bind_eq_some_iff.mp hrest
  exact not_valid_freeNvItems (c := { c with heap := heap }) hitems hfree

end Memory

/-! ## A call that fails -/

section Calls

variable (a : Answers) {c c' : Cache} {id : BitVec 64} {buf : List BYTE} {r : ℤ}

theorem putEntry_items {e : Entry} (h : c.putEntry e = some c') : c'.items = c.items := by
  unfold Cache.putEntry at h
  split at h
  · split at h
    · cases h
      rfl
    · cases h
  · cases h

/-- Behind the allocations every failure frees the table. -/
theorem not_valid_syncNvItem {size : ℕ} (hitems : c.items ≠ none)
    (h : c.syncNvItem a size = some (c', r)) (hr : r < 0) : ¬ Valid c' := by
  let added : Cache := { c with total := c.total + 1, dataSize := c.dataSize + size }
  unfold Cache.syncNvItem at h
  split at h
  · exact not_valid_freeNvItemData a hitems h
  split at h
  · exact not_valid_freeNvItemData a hitems h
  split at h
  · exact not_valid_freeNvItemData a hitems h
  split at h
  · exact not_valid_freeNvItemData a hitems h
  dsimp only at h
  split at h
  · exact not_valid_freeNvItemData (c := added) a hitems h
  split at h
  · exact not_valid_freeNvItemData (c := added) a hitems h
  · cases h
    exact absurd hr (by decide)

/-- **An item that is not added.** The table is lost, or it is freed. -/
theorem addNvItem_failed (h : c.addNvItem a buf id = some (c', r)) (hr : r < 0) :
    a.reallocs = false ∧ c' = { c with items := none } ∨ a.reallocs = true ∧ ¬ Valid c' := by
  unfold Cache.addNvItem at h
  by_cases hrealloc : ¬ a.reallocs = true
  · rw [if_pos hrealloc] at h
    cases h
    exact Or.inl ⟨Bool.not_eq_true _ ▸ hrealloc, rfl⟩
  rw [if_neg hrealloc] at h
  refine Or.inr ⟨not_not.mp hrealloc, ?_⟩
  obtain ⟨grown, hgrow, hrest⟩ := bind_eq_some_iff.mp h
  have hitems : grown.items ≠ none := by
    obtain ⟨old, -, hfree⟩ := bind_eq_some_iff.mp hgrow
    obtain ⟨heap, -, heq⟩ := bind_eq_some_iff.mp hfree
    cases heq
    exact some_ne_none _
  split at hrest
  · split at hrest
    · cases hrest
    · obtain ⟨filled, hput, hfree⟩ := bind_eq_some_iff.mp hrest
      exact not_valid_freeNvItems (by rwa [putEntry_items hput]) hfree
  · obtain ⟨filled, hput, hsync⟩ := bind_eq_some_iff.mp hrest
    exact not_valid_syncNvItem a (by rwa [putEntry_items hput]) hsync hr

/-- **An item that is not modified** has its data overwritten, if the size
is its own. -/
theorem modifyNvItem_failed {index : ℕ} {e : Entry} (he : c.entry index = some e)
    (h : c.modifyNvItem a buf index = some (c', r)) (hr : r < 0) :
    buf.length ≠ e.size ∧ c' = c ∨ buf.length = e.size ∧ c.fill e.data buf = some c' := by
  unfold Cache.modifyNvItem at h
  rw [he, bind_eq_bind, bind_some] at h
  split at h
  · next hsize =>
    cases h
    exact Or.inl ⟨hsize, rfl⟩
  · next hsize =>
    refine Or.inr ⟨not_not.mp hsize, ?_⟩
    obtain ⟨filled, hfill, hrest⟩ := bind_eq_some_iff.mp h
    obtain ⟨before, -, hwrite⟩ := bind_eq_some_iff.mp hrest
    dsimp only at hwrite
    split at hwrite
    · cases hwrite
      exact hfill
    split at hwrite
    · cases hwrite
      exact hfill
    · cases hwrite
      exact absurd hr (by decide)

theorem unchanged_refl (h : Valid c) : Unchanged c c := ⟨h, fun _ => rfl⟩

/-- A table that is lost. -/
theorem unchanged_lost_iff : Unchanged c { c with items := none } ↔ c.total = 0 := by
  constructor
  · rintro ⟨⟨-, hzero⟩ | ⟨entries, htable, -⟩, -⟩
    · exact hzero
    · have hget := table_eq_some.mp htable
      cases hget
  · intro hzero
    refine ⟨Or.inl ⟨rfl, hzero⟩, fun id => ?_⟩
    unfold Cache.getNvItem
    dsimp only
    rw [hzero]
    rfl

/-- Data that are overwritten. -/
theorem unchanged_fill_iff {i : ℕ} {e : Entry} (hvalid : Valid c)
    (hfound : c.search id c.total 0 = some (some i)) (he : c.entry i = some e)
    (hsize : buf.length = e.size) (hfill : c.fill e.data buf = some c') :
    Unchanged c c' ↔ c.bytes e.data e.size = some buf := by
  have htable := table_fill hfill
  constructor
  · rintro ⟨-, hsame⟩
    have hget := hsame id
    unfold Cache.getNvItem at hget
    have htotal : c'.total = c.total := by
      obtain ⟨a, bytes, -, -, -, rfl⟩ := fill_eq_some hfill
      rfl
    have hentry : c'.entry i = some e := by
      unfold Cache.entry
      rw [htable]
      exact he
    rw [search_congr htable, htotal, hfound] at hget
    dsimp only [bind_eq_bind, bind_some] at hget
    rw [hentry, he, bind_some, bind_some, ← hsize, bytes_fill hfill] at hget
    rw [← hsize]
    obtain ⟨bytes, hbytes, heq⟩ := map_eq_some_iff.mp hget.symm
    rw [hbytes, some.inj heq]
  · intro hsame
    rw [fill_same hfill (by rw [hsize]; exact hsame)]
    exact unchanged_refl hvalid

end Calls

/-- **Which failing calls change nothing.** For every valid cache, every
call and every answer of the system: a call that returns a negative value
leaves a valid cache with the same items exactly if it is harmless. -/
theorem unchanged_iff {a : Answers} {c c' : Cache} {buf : Option (List BYTE)} {id : BitVec 64}
    {r : ℤ} (hvalid : Valid c) (hset : c.setNvItem a buf id = some (c', r)) (hr : r < 0) :
    Unchanged c c' ↔ Harmless a c buf id := by
  cases buf with
  | none =>
    cases hset
    exact iff_of_true (unchanged_refl hvalid) trivial
  | some buf =>
    obtain ⟨found, hfound, hrest⟩ := bind_eq_some_iff.mp hset
    split at hrest
    · cases hrest
      exact absurd hr (Int.not_lt.mpr (Int.natCast_nonneg _))
    unfold Harmless
    dsimp only
    rw [hfound, join_some]
    cases found with
    | none =>
      dsimp only at hrest ⊢
      rcases addNvItem_failed a hrest hr with ⟨hrealloc, rfl⟩ | ⟨hrealloc, hinvalid⟩
      · rw [unchanged_lost_iff, and_iff_left hrealloc]
      · exact iff_of_false (fun h => hinvalid h.valid)
          fun h => Bool.noConfusion (hrealloc.symm.trans h.2)
    | some i =>
      dsimp only at hrest ⊢
      obtain ⟨-, -, e, he, -⟩ := search_found hfound
      rw [he]
      have hentry : (∀ e', some e = some e' → buf.length = e'.size →
          c.bytes e'.data e'.size = some buf) ↔
          (buf.length = e.size → c.bytes e.data e.size = some buf) := by simp
      rw [hentry]
      rcases modifyNvItem_failed a he hrest hr with ⟨hsize, rfl⟩ | ⟨hsize, hfill⟩
      · exact iff_of_true (unchanged_refl hvalid) fun h => absurd h hsize
      · rw [unchanged_fill_iff hvalid hfound he hsize hfill]
        exact ⟨fun h _ => h, fun h => h hsize⟩

/-- Every step succeeds, but the first `lseek`. -/
def seekFails : Answers where
  lock := 0
  reallocs := true
  mallocs := true
  seek := fun k _ => if k = 0 then -1 else 0
  write := fun _ => 1
  raw := ⟨0, 0, none⟩
  behind := none

/-- A cache of one item. -/
def oneItem : Cache where
  itemOffset := 32
  total := 1
  dataOffset := 128
  dataSize := 1
  items := some 0
  heap := [some (.items [⟨7, 1, some 1⟩]), some (.data [9])]

theorem valid_oneItem : Valid oneItem := by
  refine Or.inr ⟨[⟨7, 1, some 1⟩], rfl, Nat.le_refl 1, fun e he => ?_⟩
  obtain rfl : e = ⟨7, 1, some 1⟩ := List.mem_singleton.mp he
  exact ⟨[9], rfl, Nat.le_refl 1⟩

/-- The value it has already. -/
theorem unchanged_sameValue : oneItem.setNvItem seekFails (some [9]) 7 = some (oneItem, -1) ∧
    Unchanged oneItem oneItem := by
  have hset : oneItem.setNvItem seekFails (some [9]) 7 = some (oneItem, -1) := by decide
  exact ⟨hset, (unchanged_iff valid_oneItem hset (by decide)).mpr fun e he _ => by cases he; rfl⟩

/-- **A new item whose entry cannot be written** leaves a table that was
freed, and a new value is there though the call failed. -/
theorem not_unchanged_seekFails :
    (∃ c', oneItem.setNvItem seekFails (some [5]) 2 = some (c', -1) ∧ ¬ Unchanged oneItem c') ∧
      ∃ c', oneItem.setNvItem seekFails (some [1]) 7 = some (c', -1) ∧ ¬ Unchanged oneItem c' := by
  refine ⟨⟨_, rfl, fun h => ?_⟩, ⟨_, rfl, fun h => ?_⟩⟩
  · exact absurd (h.same 7) (by decide)
  · exact absurd (h.same 7) (by decide)

end ExynosVendor.NvCache
