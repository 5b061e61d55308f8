import Mathlib.Data.List.Basic

/-!
# The OSI memory pool

`OSI_mem_get` and `OSI_mem_free` of `osi/osi_memory.cc`, as they find the
pool under the lock: the free buffer that is taken is the last of the table,
and a buffer is freed whatever it was.
-/

namespace ExynosVendor.Nfc

def osiMaxMemPool : ℕ := 10

def osiMemPoolSize : ℕ := 259

def osiFree : BitVec 8 := 2

def osiAllocated : BitVec 8 := 3

/-- The states of the buffers. -/
abbrev OsiMem := List (BitVec 8)

namespace OsiMem

/-- `OSI_init`, of the pool. -/
def init : OsiMem := List.replicate osiMaxMemPool osiFree

/-- The loop of `OSI_mem_get`. -/
def findFree : OsiMem → ℕ → Option ℕ → Option ℕ
  | [], _, freeMem => freeMem
  | s :: rest, index, freeMem =>
      findFree rest (index + 1) (if s = osiFree then some index else freeMem)

/-- `OSI_mem_get`, at one attempt. -/
def get (mem : OsiMem) : Option ℕ × OsiMem :=
  match findFree mem 0 none with
  | none => (none, mem)
  | some index => (some index, mem.set index osiAllocated)

/-- `OSI_mem_free`. -/
def free (mem : OsiMem) (target : ℕ) : OsiMem := mem.set target osiFree

variable {mem mem' : OsiMem} {slot : ℕ}

/-- The loop of `OSI_mem_get` finds a buffer that is free. -/
theorem findFree_free {index : ℕ} {found : Option ℕ}
    (h : findFree mem index found = some slot) :
    found = some slot ∨ (index ≤ slot ∧ mem[slot - index]? = some osiFree) := by
  induction mem generalizing index found with
  | nil => exact .inl h
  | cons st rest ih =>
    rcases ih h with hfound | ⟨hle, hget⟩
    · by_cases hst : st = osiFree
      · rw [if_pos hst] at hfound
        obtain rfl := Option.some.inj hfound
        refine .inr ⟨Nat.le_refl _, ?_⟩
        rw [Nat.sub_self, List.getElem?_cons_zero, hst]
      · rw [if_neg hst] at hfound
        exact .inl hfound
    · refine .inr ⟨by omega, ?_⟩
      rw [show slot - index = (slot - (index + 1)) + 1 by omega, List.getElem?_cons_succ]
      exact hget

/-- **A buffer that is handed out** was free. -/
theorem get_free (h : mem.get = (some slot, mem')) :
    mem[slot]? = some osiFree ∧ mem' = mem.set slot osiAllocated := by
  unfold get at h
  split at h
  · exact absurd (congrArg Prod.fst h) (by simp)
  · rename_i index hfind
    obtain ⟨hslot, hmem⟩ := Prod.mk.inj h
    obtain rfl := Option.some.inj hslot
    rcases findFree_free hfind with hnone | ⟨-, hget⟩
    · exact absurd hnone (by simp)
    · exact ⟨hget, hmem.symm⟩

end OsiMem

end ExynosVendor.Nfc
