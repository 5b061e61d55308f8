import ExynosVendor.Common.File
import Mathlib.Logic.Function.Basic

/-!
# Descriptors of files

What a process sees of its files: their contents by name, and a table of
what it has opened. A descriptor stands here for one `open`; `none` is the
negative number of an `open` that failed. A call on a descriptor that is
not open is recorded as stray. The kernel gives the number of a descriptor
that was closed again: `renumbered` is what a number held since then names.
-/

namespace ExynosVendor.Descriptor

open List Option

variable {ν α : Type}

/-- An open file: its name, the position in it, and how it was opened. -/
structure Description (ν : Type) where
  name : ν
  pos : ℕ
  append : Bool
  writable : Bool
  deriving DecidableEq

/-- The files and the descriptors. -/
structure System (ν α : Type) where
  files : ν → Option (List α)
  /-- Every description opened so far, by its descriptor. -/
  opened : List (Description ν)
  /-- Every descriptor `close` was called on. -/
  closed : List ℕ
  /-- Every descriptor that was not open when it was read or written. -/
  stray : List (Option ℕ)

namespace System

/-- The description behind a descriptor that is open. -/
def lookup (k : System ν α) (d : ℕ) : Option (Description ν) :=
  if d ∈ k.closed then none else k.opened[d]?

/-- The same for what a program holds as a descriptor. -/
def find (k : System ν α) (fd : Option ℕ) : Option (Description ν) := fd.bind k.lookup

/-- **The descriptor is open.** -/
def Live (k : System ν α) (fd : Option ℕ) : Prop := (k.find fd).isSome

instance (k : System ν α) (fd : Option ℕ) : Decidable (k.Live fd) :=
  inferInstanceAs (Decidable (_ = true))

def content (k : System ν α) (e : Description ν) : List α := (k.files e.name).getD []

/-- Another description behind a descriptor. -/
def describe (k : System ν α) (fd : Option ℕ) (e : Description ν) : System ν α :=
  { k with opened := fd.elim k.opened fun d => k.opened.set d e }

/-- An `open` that succeeds: the descriptor is the one behind all others. -/
def openFile (k : System ν α) (name : ν) (writable append : Bool) : System ν α :=
  { k with opened := k.opened ++ [⟨name, 0, append, writable⟩] }

def close (k : System ν α) (fd : Option ℕ) : System ν α :=
  { k with closed := fd.toList ++ k.closed }

/-- `lseek` to a position. -/
def seek (k : System ν α) (fd : Option ℕ) (pos : ℕ) : System ν α :=
  match k.find fd with
  | none => k
  | some e => k.describe fd { e with pos }

/-- `read` of at most `n` bytes. The system gives what lies ahead, and of
that no more than `limit`; without one the call fails. -/
def read (k : System ν α) (fd : Option ℕ) (n : ℕ) (limit : Option ℕ) :
    System ν α × Option (List α) :=
  match k.find fd, limit with
  | none, _ => ({ k with stray := fd :: k.stray }, none)
  | some _, none => (k, none)
  | some e, some l =>
      let bytes := ((k.content e).drop e.pos).take (min n l)
      (k.describe fd { e with pos := e.pos + bytes.length }, some bytes)

/-! ## Which descriptors are open -/

@[simp] theorem find_none (k : System ν α) : k.find none = none := rfl

@[simp] theorem find_some (k : System ν α) (d : ℕ) : k.find (some d) = k.lookup d := rfl

theorem not_live_none (k : System ν α) : ¬ k.Live none := fun h => Bool.noConfusion h

/-- A descriptor is open from the `open` that gave it to its `close`. -/
theorem live_some (k : System ν α) (d : ℕ) :
    k.Live (some d) ↔ d < k.opened.length ∧ d ∉ k.closed := by
  unfold Live
  rw [find_some, lookup]
  split_ifs with h
  · simp [h]
  · simp [h]

variable {k : System ν α} {fd limit : Option ℕ} {e : Description ν} {d : ℕ} {name : ν}
variable {writable : Bool} {fill : α} {bytes : List α}

theorem Live.exists_find (h : k.Live fd) :
    ∃ e, k.find fd = some e := isSome_iff_exists.mp h

/-- Two systems agree on which descriptors were opened, closed and misused. -/
structure SameTable (k k' : System ν α) : Prop where
  opened : k'.opened.length = k.opened.length
  closed : k'.closed = k.closed
  stray : k'.stray = k.stray

theorem SameTable.refl (k : System ν α) : SameTable k k := ⟨rfl, rfl, rfl⟩

theorem SameTable.trans {k₁ k₂ k₃ : System ν α} (h : SameTable k₁ k₂) (h' : SameTable k₂ k₃) :
    SameTable k₁ k₃ :=
  ⟨h'.opened.trans h.opened, h'.closed.trans h.closed, h'.stray.trans h.stray⟩

theorem SameTable.live_iff {k' : System ν α} (h : SameTable k k') (fd : Option ℕ) :
    k'.Live fd ↔ k.Live fd := by
  cases fd with
  | none => exact iff_of_false (not_live_none k') (not_live_none k)
  | some d => rw [live_some, live_some, h.opened, h.closed]

theorem sameTable_describe (k : System ν α) (fd : Option ℕ) (e : Description ν) :
    SameTable k (k.describe fd e) := by
  refine ⟨?_, rfl, rfl⟩
  cases fd with
  | none => rfl
  | some d => exact length_set

theorem find_describe (h : k.Live fd) (e : Description ν) :
    (k.describe fd e).find fd = some e := by
  cases fd with
  | none => exact absurd h (not_live_none k)
  | some d =>
    rw [live_some] at h
    show (if d ∈ k.closed then none else (k.opened.set d e)[d]?) = some e
    rw [if_neg h.2, getElem?_set_self h.1]

/-- After an `lseek` the position is the one asked for. -/
theorem find_seek (h : k.find fd = some e) (pos : ℕ) :
    (k.seek fd pos).find fd = some { e with pos } := by
  unfold seek
  rw [h]
  exact find_describe (by rw [Live, h]; rfl) _

theorem files_seek (k : System ν α) (fd : Option ℕ) (pos : ℕ) :
    (k.seek fd pos).files = k.files := by
  unfold seek
  split <;> rfl

/-- What a `read` gives of an open file. -/
theorem read_eq (h : k.find fd = some e) (n l : ℕ) :
    k.read fd n (some l) =
      (k.describe fd { e with
        pos := e.pos + (((k.content e).drop e.pos).take (min n l)).length },
        some (((k.content e).drop e.pos).take (min n l))) := by
  unfold read
  rw [h]

theorem files_read (k : System ν α) (fd : Option ℕ) (n : ℕ) (limit : Option ℕ) :
    (k.read fd n limit).1.files = k.files := by
  unfold read
  split <;> rfl

theorem sameTable_seek (k : System ν α) (fd : Option ℕ) (pos : ℕ) :
    SameTable k (k.seek fd pos) := by
  unfold seek
  split
  · exact SameTable.refl k
  · exact sameTable_describe k fd _

/-- A `read` of an open descriptor is not stray. -/
theorem sameTable_read (h : k.Live fd) (n : ℕ) (limit : Option ℕ) :
    SameTable k (k.read fd n limit).1 := by
  obtain ⟨e, he⟩ := h.exists_find
  unfold read
  rw [he]
  cases limit with
  | none => exact SameTable.refl k
  | some l => exact sameTable_describe k fd _

/-- After an `open`, its own descriptor is open too, and no other. -/
theorem live_openFile (h : k.opened.length ∉ k.closed) (name : ν) (writable append : Bool) (d : ℕ) :
    (k.openFile name writable append).Live (some d) ↔
      k.Live (some d) ∨ d = k.opened.length := by
  rw [live_some, live_some]
  show d < (k.opened ++ [_]).length ∧ d ∉ k.closed ↔ _
  rw [length_append, length_singleton]
  constructor
  · rintro ⟨hd, hc⟩
    rcases Nat.lt_succ_iff_lt_or_eq.mp hd with hd | hd
    · exact Or.inl ⟨hd, hc⟩
    · exact Or.inr hd
  · rintro (⟨hd, hc⟩ | rfl)
    · exact ⟨Nat.lt_succ_of_lt hd, hc⟩
    · exact ⟨Nat.lt_succ_self _, h⟩

/-- After a `close`, its descriptor is not. -/
theorem live_close (k : System ν α) (fd : Option ℕ) (d : ℕ) :
    (k.close fd).Live (some d) ↔ k.Live (some d) ∧ fd ≠ some d := by
  rw [live_some, live_some]
  show d < k.opened.length ∧ d ∉ fd.toList ++ k.closed ↔ _
  cases fd with
  | none => simp
  | some d' =>
    rw [toList_some, singleton_append, mem_cons, not_or, ne_eq, some_inj,
      and_assoc, and_comm (a := ¬ d = d'), eq_comm (a := d)]

/-! ## How a descriptor was opened -/

/-- The descriptor was opened so; its position may be any. -/
def OpenedAs (k : System ν α) (d : ℕ) (name : ν) (append writable : Bool) : Prop :=
  ∃ pos, k.opened[d]? = some ⟨name, pos, append, writable⟩

variable {append : Bool}

theorem OpenedAs.of_find (h : k.OpenedAs d name append writable) (he : k.find (some d) = some e) :
    e.name = name ∧ e.append = append ∧ e.writable = writable := by
  obtain ⟨pos, hpos⟩ := h
  unfold find lookup at he
  rw [bind_some] at he
  split_ifs at he
  rw [hpos] at he
  obtain rfl := some.inj he
  exact ⟨rfl, rfl, rfl⟩

/-- How a descriptor was opened stays when another position is put behind
one that is open. -/
theorem OpenedAs.describe (h : k.OpenedAs d name append writable) (he : k.find fd = some e)
    (pos : ℕ) :
    (k.describe fd { e with pos }).OpenedAs d name append writable := by
  cases fd with
  | none => exact absurd he (by simp)
  | some d' =>
    by_cases hd : d' = d
    · subst hd
      obtain ⟨rfl, rfl, rfl⟩ := h.of_find he
      obtain ⟨pos', hpos⟩ := h
      exact ⟨pos, getElem?_set_self (List.getElem?_eq_some_iff.mp hpos).1⟩
    · obtain ⟨pos', hpos⟩ := h
      exact ⟨pos', (getElem?_set_ne hd).trans hpos⟩

theorem OpenedAs.seek (h : k.OpenedAs d name append writable) (fd : Option ℕ) (pos : ℕ) :
    (k.seek fd pos).OpenedAs d name append writable := by
  unfold System.seek
  split
  · exact h
  · next e he => exact h.describe he pos

theorem OpenedAs.read (h : k.OpenedAs d name append writable) (fd : Option ℕ) (n : ℕ)
    (limit : Option ℕ) :
    (k.read fd n limit).1.OpenedAs d name append writable := by
  unfold System.read
  split
  · exact h
  · exact h
  · next e l he => exact h.describe he _

/-! ## The names behind descriptors -/

/-- The names of what was opened, by descriptor. -/
def names (k : System ν α) : List ν := k.opened.map Description.name

/-- What a program holds as a descriptor is one of a file. -/
def Names (k : System ν α) (fd : Option ℕ) (name : ν) : Prop :=
  ∀ d, fd = some d → k.names[d]? = some name

/-- Only what was opened was closed. -/
def Bound (k : System ν α) : Prop := ∀ d ∈ k.closed, d < k.names.length

/-- Nothing but a file was opened from one system to the other. -/
def Grows (name : ν) (k k' : System ν α) : Prop :=
  ∃ n, k'.names = k.names ++ List.replicate n name

section Names

variable {k k' k'' : System ν α} {name : ν}

theorem grows_of_eq (h : k'.names = k.names) : Grows name k k' :=
  ⟨0, h.trans (append_nil _).symm⟩

theorem Grows.trans (h : Grows name k k') (h' : Grows name k' k'') : Grows name k k'' := by
  obtain ⟨n, hn⟩ := h
  obtain ⟨n', hn'⟩ := h'
  exact ⟨n + n', by rw [hn', hn, append_assoc, replicate_append_replicate]⟩

theorem Grows.length_le (h : Grows name k k') : k.names.length ≤ k'.names.length := by
  obtain ⟨n, hn⟩ := h
  rw [hn, length_append]
  exact Nat.le_add_right _ _

theorem bound_of_eq (hnames : k'.names = k.names) (hclosed : k'.closed = k.closed)
    (h : k.Bound) : k'.Bound := by
  intro d hd
  rw [hnames]
  exact h d (hclosed ▸ hd)

variable {fd : Option ℕ}

theorem Names.grows {other : ν} (h : k.Names fd name) (hg : Grows other k k') :
    k'.Names fd name := by
  intro d hd
  obtain ⟨n, hn⟩ := hg
  have hat := h d hd
  rw [hn, getElem?_append_left (List.getElem?_eq_some_iff.mp hat).1]
  exact hat

theorem Names.of_find {e : Description ν} (h : k.Names fd name) (he : k.find fd = some e) :
    e.name = name := by
  cases fd with
  | none => exact absurd he (by simp)
  | some d =>
    unfold find lookup at he
    rw [bind_some] at he
    split_ifs at he
    have hat := h d rfl
    unfold names at hat
    rw [getElem?_map, he] at hat
    exact some.inj hat

theorem names_openFile (k : System ν α) (name : ν) (writable append : Bool) :
    (k.openFile name writable append).names = k.names ++ [name] := map_append

/-- What an `open` gives was not closed before. -/
theorem live_opened (h : k.Bound) (name : ν) (writable append : Bool) :
    (k.openFile name writable append).Live (some k.opened.length) := by
  have hfresh : k.opened.length ∉ k.closed := by
    intro hmem
    have hlt := h _ hmem
    unfold names at hlt
    rw [length_map] at hlt
    exact Nat.lt_irrefl _ hlt
  exact (live_openFile hfresh name writable append _).mpr (Or.inr rfl)

/-- What an `open` gives is a descriptor of its file. -/
theorem names_opened (k : System ν α) (name : ν) (writable append : Bool) :
    (k.openFile name writable append).Names (some k.opened.length) name := by
  intro d hd
  obtain rfl := some.inj hd
  rw [names_openFile, ← length_map Description.name]
  exact getElem?_concat_length

theorem names_describe {e e' : Description ν} (he : k.find fd = some e) (hname : e'.name = e.name) :
    (k.describe fd e').names = k.names := by
  cases fd with
  | none => rfl
  | some d =>
    unfold find lookup at he
    rw [bind_some] at he
    split_ifs at he
    have hat : k.names[d]? = some e'.name := by
      unfold names
      rw [getElem?_map, he, hname]
      rfl
    have hset : (k.describe (some d) e').names = k.names.set d e'.name := map_set
    obtain ⟨hd, hat⟩ := List.getElem?_eq_some_iff.mp hat
    rw [hset, ← hat]
    exact set_getElem_self hd

theorem names_seek (k : System ν α) (fd : Option ℕ) (pos : ℕ) :
    (k.seek fd pos).names = k.names := by
  unfold seek
  split
  · rfl
  · next e he => exact names_describe he rfl

theorem closed_seek (k : System ν α) (fd : Option ℕ) (pos : ℕ) :
    (k.seek fd pos).closed = k.closed := (sameTable_seek k fd pos).closed

theorem closed_read (k : System ν α) (fd : Option ℕ) (n : ℕ) (limit : Option ℕ) :
    (k.read fd n limit).1.closed = k.closed := by
  unfold read
  split <;> rfl

theorem names_read (k : System ν α) (fd : Option ℕ) (n : ℕ) (limit : Option ℕ) :
    (k.read fd n limit).1.names = k.names := by
  unfold read
  split
  · rfl
  · rfl
  · next e l he => exact names_describe he rfl

end Names

/-! ## Numbers given again -/

section Numbers

variable (k : System ν α) (number : ℕ → ℕ) (fd : Option ℕ)

/-- **What a number names** that was given for a descriptor: the one that is open under it,
where there is one. -/
def renumbered : Option ℕ :=
  fd.map fun d => if k.Live (some d) then d else
    ((List.range k.opened.length).find? fun d' => k.Live (some d') ∧ number d' = number d).getD d

/-- The descriptor was closed, and its number given again. -/
def Reused : Prop :=
  ∃ d d', fd = some d ∧ ¬ k.Live (some d) ∧ k.Live (some d') ∧ number d' = number d

variable {k number fd}

theorem renumbered_eq (h : ¬ k.Reused number fd) : k.renumbered number fd = fd := by
  unfold renumbered
  cases fd with
  | none => rfl
  | some d =>
    rw [map_some]
    split
    · rfl
    · next hclosed =>
      have hnone : (List.range k.opened.length).find?
          (fun d' => decide (k.Live (some d') ∧ number d' = number d)) = none := by
        rw [find?_eq_none]
        intro d' _ hd'
        obtain ⟨hlive, hnumber⟩ := of_decide_eq_true hd'
        exact h ⟨d, d', rfl, hclosed, hlive, hnumber⟩
      rw [hnone]
      rfl

end Numbers

/-! ## Writing -/

variable [DecidableEq ν]

/-- Another content of a file. -/
def store (k : System ν α) (name : ν) (bytes : List α) : System ν α :=
  { k with files := Function.update k.files name (some bytes) }

/-- `write`, with what the system takes of the bytes. -/
def write (fill : α) (k : System ν α) (fd : Option ℕ) (bytes : List α) (limit : Option ℕ) :
    System ν α × Option ℕ :=
  match k.find fd, limit with
  | none, _ => ({ k with stray := fd :: k.stray }, none)
  | some _, none => (k, none)
  | some e, some l =>
      if e.writable then
        let taken := bytes.take l
        let offset := if e.append then (k.content e).length else e.pos
        ((k.store e.name (File.write fill (k.content e) offset taken)).describe fd
          { e with pos := offset + taken.length }, some taken.length)
      else (k, none)

theorem files_store_self (k : System ν α) (name : ν) (bytes : List α) :
    (k.store name bytes).files name = some bytes := Function.update_self _ _ _

theorem files_store_ne (k : System ν α) {other : ν} (h : other ≠ name) (bytes : List α) :
    (k.store name bytes).files other = k.files other := Function.update_of_ne h _ _

theorem sameTable_store (k : System ν α) (name : ν) (bytes : List α) :
    SameTable k (k.store name bytes) := ⟨rfl, rfl, rfl⟩

/-- A `write` to an open descriptor is not stray. -/
theorem sameTable_write (h : k.Live fd) (fill : α) (bytes : List α) (limit : Option ℕ) :
    SameTable k (k.write fill fd bytes limit).1 := by
  obtain ⟨e, he⟩ := h.exists_find
  unfold write
  rw [he]
  cases limit with
  | none => exact SameTable.refl k
  | some l =>
    dsimp only
    by_cases hw : e.writable
    · rw [if_pos hw]
      exact (sameTable_store k _ _).trans (sameTable_describe _ fd _)
    · rw [if_neg hw]
      exact SameTable.refl k

theorem OpenedAs.write (h : k.OpenedAs d name append writable) (fill : α) (fd : Option ℕ)
    (bytes : List α) (limit : Option ℕ) :
    (k.write fill fd bytes limit).1.OpenedAs d name append writable := by
  unfold System.write
  split
  · exact h
  · exact h
  · next e l he =>
    dsimp only
    split
    · have hstore : (k.store e.name (File.write fill (k.content e)
          (if e.append then (k.content e).length else e.pos) (bytes.take l))).OpenedAs
            d name append writable := h
      exact hstore.describe he _
    · exact h

/-- No file disappears. -/
theorem files_write_ne_none (h : k.files name ≠ none) (fill : α) (fd : Option ℕ) (bytes : List α)
    (limit : Option ℕ) :
    (k.write fill fd bytes limit).1.files name ≠ none := by
  unfold write
  split
  · exact h
  · exact h
  · dsimp only
    split
    · show Function.update k.files _ _ name ≠ none
      rw [Function.update_apply]
      split
      · exact some_ne_none _
      · exact h
    · exact h

theorem names_write (k : System ν α) (fill : α) (fd : Option ℕ) (bytes : List α)
    (limit : Option ℕ) : (k.write fill fd bytes limit).1.names = k.names := by
  unfold write
  split
  · rfl
  · rfl
  · next e l he =>
    dsimp only
    split
    · have hstore : (k.store e.name (File.write fill (k.content e)
          (if e.append then (k.content e).length else e.pos) (bytes.take l))).find fd = some e := he
      exact names_describe hstore rfl
    · rfl

theorem closed_write (k : System ν α) (fill : α) (fd : Option ℕ) (bytes : List α)
    (limit : Option ℕ) : (k.write fill fd bytes limit).1.closed = k.closed := by
  unfold write
  split
  · rfl
  · rfl
  · dsimp only
    split <;> rfl

/-- The other files are as they were. -/
theorem Names.files_write {other : ν} (h : k.Names fd name) (hother : other ≠ name) (fill : α)
    (bytes : List α) (limit : Option ℕ) :
    (k.write fill fd bytes limit).1.files other = k.files other := by
  unfold write
  split
  · rfl
  · rfl
  · next e l he =>
    have hname := h.of_find he
    dsimp only
    split
    · exact files_store_ne k (hname.symm ▸ hother) _
    · rfl

/-- A file that took bytes is there. -/
theorem Names.files_written (h : k.Names fd name) {n : ℕ}
    (htaken : (k.write fill fd bytes limit).2 = some n) :
    (k.write fill fd bytes limit).1.files name ≠ none := by
  unfold write at htaken ⊢
  split at htaken
  · exact absurd htaken (by simp)
  · exact absurd htaken (by simp)
  · next e l he =>
    have hname := h.of_find he
    dsimp only at htaken ⊢
    split at htaken
    · next hw =>
      rw [if_pos hw, ← hname]
      show (k.store e.name _).files e.name ≠ none
      rw [files_store_self]
      exact some_ne_none _
    · exact absurd htaken (by simp)

/-- A `write` without a byte leaves a file that is there as it was. -/
theorem files_write_nil (h : ∀ e, k.find fd = some e → k.files e.name ≠ none) (fill : α)
    (limit : Option ℕ) :
    (k.write fill fd [] limit).1.files = k.files := by
  unfold System.write
  split
  · rfl
  · rfl
  · next e l he =>
    dsimp only
    split
    · obtain ⟨bytes, hbytes⟩ := ne_none_iff_exists'.mp (h e he)
      have hcontent : some (k.content e) = k.files e.name := by
        unfold content
        rw [hbytes]
        rfl
      have hwrite : ∀ offset, File.write fill (k.content e) offset (List.take l []) =
          k.content e := fun offset => by
        rw [take_nil]
        exact if_pos rfl
      show Function.update k.files e.name _ = k.files
      rw [hwrite, hcontent, Function.update_eq_self]
    · rfl

/-- Where a `write` begins. -/
def start (k : System ν α) (e : Description ν) : ℕ :=
  if e.append then (k.content e).length else e.pos

/-- What a `write` to an open file does. -/
theorem write_eq (h : k.find fd = some e) (hw : e.writable) (fill : α) (bytes : List α) (l : ℕ) :
    k.write fill fd bytes (some l) =
      ((k.store e.name (File.write fill (k.content e) (k.start e) (bytes.take l))).describe fd
        { e with pos := k.start e + (bytes.take l).length }, some (bytes.take l).length) := by
  unfold write
  rw [h]
  exact if_pos hw

/-- A `write` that takes every byte. -/
theorem write_all (h : k.find fd = some e) (hw : e.writable)
    (hall : (k.write fill fd bytes limit).2 = some bytes.length) :
    (k.write fill fd bytes limit).1 =
      (k.store e.name (File.write fill (k.content e) (k.start e) bytes)).describe fd
        { e with pos := k.start e + bytes.length } := by
  cases limit with
  | none =>
    have hnone : k.write fill fd bytes none = (k, none) := by
      unfold write
      rw [h]
    rw [hnone] at hall
    exact absurd hall (by simp)
  | some l =>
    rw [write_eq h hw] at hall ⊢
    have htake : bytes.take l = bytes := by
      refine take_of_length_le ?_
      have hlen := some.inj hall
      rw [length_take] at hlen
      omega
    rw [htake]

/-- Where the file is written and the descriptor stands after it. -/
theorem written_all (h : k.find fd = some e) (hw : e.writable)
    (hall : (k.write fill fd bytes limit).2 = some bytes.length) :
    (k.write fill fd bytes limit).1.find fd =
        some { e with pos := k.start e + bytes.length } ∧
      (k.write fill fd bytes limit).1.files e.name =
        some (File.write fill (k.content e) (k.start e) bytes) := by
  have hlive : (k.store e.name (File.write fill (k.content e) (k.start e) bytes)).Live fd := by
    have hfind : (k.store e.name (File.write fill (k.content e) (k.start e) bytes)).find fd =
        some e := h
    rw [Live, hfind]
    rfl
  rw [write_all h hw hall]
  exact ⟨find_describe hlive _, Function.update_self _ _ _⟩

theorem write_nothing (h : k.find fd = some e) (hw : e.writable)
    (hfail : (k.write fill fd [] limit).2 ≠ some 0) : (k.write fill fd [] limit).1 = k := by
  cases limit with
  | none =>
    unfold write
    rw [h]
  | some l =>
    rw [write_eq h hw] at hfail
    exact absurd (by simp) hfail

end System

end ExynosVendor.Descriptor
