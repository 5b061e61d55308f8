import ExynosVendor.EdenRuntime.Buffers

/-!
# The books of the buffers

A buffer is in the map when it is allocated, but for the calls that allocate it and have not
stored it yet and those that have freed it and not erased it yet. Its handle lives, but for
the one call that has deleted it and is about to replace it, or to free the buffer
(`BuffersKept`). Distinct buffers have distinct handles, and no handle lives outside the map
(`HandlesKept`).
-/

namespace ExynosVendor.EdenRuntime

open Phase State Threads
open Option Function

/-! ## The handles -/

/-- **The handles that live** are those of the map, each of one buffer. -/
structure HandlesKept (map : ℕ → Option Entry) (handles : ℕ → Bool) (nextHandle : ℕ) : Prop where
  distinct : ∀ a b e e', map a = some e → map b = some e' → e.handle = e'.handle → a = b
  owned : ∀ h, handles h = true → ∃ a e, map a = some e ∧ e.handle = h
  fresh : ∀ a e, map a = some e → e.handle < nextHandle

/-- A handle that lives, in the map. -/
def servedBy (map : ℕ → Option Entry) (handles : ℕ → Bool) (a : ℕ) : Bool :=
  (map a).any fun e => handles e.handle

theorem servedBy_iff {map : ℕ → Option Entry} {handles : ℕ → Bool} {a : ℕ} :
    servedBy map handles a = true ↔ ∃ e, map a = some e ∧ handles e.handle = true := by
  unfold servedBy
  cases map a with
  | none => simp
  | some e => simp

namespace HandlesKept

variable {map : ℕ → Option Entry} {handles : ℕ → Bool} {nextHandle : ℕ} {b : ℕ}

theorem initial : HandlesKept (fun _ => none) (fun _ => false) 0 :=
  ⟨fun _ _ _ _ h => absurd h (by simp), fun _ h => absurd h (by simp),
    fun _ _ h => absurd h (by simp)⟩

/-- **A new handle** takes the place of one that is dead, or of none. -/
theorem store (h : HandlesKept map handles nextHandle) (hdead : servedBy map handles b = false)
    (node num : ℕ) :
    HandlesKept (Function.update map b (some ⟨node, nextHandle, num⟩))
      (Function.update handles nextHandle true) (nextHandle + 1) where
  distinct := by
    intro a a' e e' ha ha' heq
    by_cases hab : a = b
    · by_cases hab' : a' = b
      · rw [hab, hab']
      · rw [hab, update_self] at ha
        rw [update_of_ne hab'] at ha'
        obtain rfl := some.inj ha
        exact absurd heq (Nat.ne_of_gt (h.fresh a' e' ha'))
    · rw [update_of_ne hab] at ha
      by_cases hab' : a' = b
      · rw [hab', update_self] at ha'
        obtain rfl := some.inj ha'
        exact absurd heq (Nat.ne_of_lt (h.fresh a e ha))
      · rw [update_of_ne hab'] at ha'
        exact h.distinct a a' e e' ha ha' heq
  owned := by
    intro x hx
    by_cases hnew : x = nextHandle
    · exact ⟨b, _, update_self .., hnew.symm⟩
    · rw [update_of_ne hnew] at hx
      obtain ⟨a, e, ha, rfl⟩ := h.owned x hx
      have hab : a ≠ b := by
        rintro rfl
        rw [servedBy_iff.mpr ⟨e, ha, hx⟩] at hdead
        exact Bool.false_ne_true hdead.symm
      exact ⟨a, e, by rw [update_of_ne hab]; exact ha, rfl⟩
  fresh := by
    intro a e ha
    by_cases hab : a = b
    · rw [hab, update_self] at ha
      obtain rfl := some.inj ha
      exact Nat.lt_succ_self nextHandle
    · rw [update_of_ne hab] at ha
      exact Nat.lt_succ_of_lt (h.fresh a e ha)

/-- **A handle is deleted.** -/
theorem delete (h : HandlesKept map handles nextHandle) (x : ℕ) :
    HandlesKept map (Function.update handles x false) nextHandle where
  distinct := h.distinct
  owned := by
    intro y hy
    by_cases hyx : y = x
    · rw [hyx, update_self] at hy
      exact absurd hy Bool.false_ne_true
    · rw [update_of_ne hyx] at hy
      exact h.owned y hy
  fresh := h.fresh

/-- **An entry is erased**, whose handle is dead. -/
theorem erase (h : HandlesKept map handles nextHandle) (hdead : servedBy map handles b = false) :
    HandlesKept (Function.update map b none) handles nextHandle where
  distinct := by
    intro a a' e e' ha ha' heq
    by_cases hab : a = b
    · rw [hab, update_self] at ha
      cases ha
    · by_cases hab' : a' = b
      · rw [hab', update_self] at ha'
        cases ha'
      · rw [update_of_ne hab] at ha
        rw [update_of_ne hab'] at ha'
        exact h.distinct a a' e e' ha ha' heq
  owned := by
    intro x hx
    obtain ⟨a, e, ha, rfl⟩ := h.owned x hx
    have hab : a ≠ b := by
      rintro rfl
      rw [servedBy_iff.mpr ⟨e, ha, hx⟩] at hdead
      exact Bool.false_ne_true hdead.symm
    exact ⟨a, e, by rw [update_of_ne hab]; exact ha, rfl⟩
  fresh := by
    intro a e ha
    by_cases hab : a = b
    · rw [hab, update_self] at ha
      cases ha
    · rw [update_of_ne hab] at ha
      exact h.fresh a e ha

/-- A new handle serves its buffer, and the others have theirs. -/
theorem served_store (h : HandlesKept map handles nextHandle) (node num a : ℕ) :
    servedBy (Function.update map b (some ⟨node, nextHandle, num⟩))
        (Function.update handles nextHandle true) a =
      if a = b then true else servedBy map handles a := by
  unfold servedBy
  by_cases hab : a = b
  · rw [if_pos hab, hab, update_self, any_some, update_self]
  · rw [if_neg hab, update_of_ne hab]
    cases ha : map a with
    | none => rfl
    | some e =>
      rw [any_some, any_some, update_of_ne (Nat.ne_of_lt (h.fresh a e ha))]

/-- A deleted handle served one buffer. -/
theorem served_delete (h : HandlesKept map handles nextHandle) {e : Entry} (hb : map b = some e)
    (a : ℕ) : servedBy map (Function.update handles e.handle false) a =
      if a = b then false else servedBy map handles a := by
  unfold servedBy
  by_cases hab : a = b
  · rw [if_pos hab, hab, hb, any_some, update_self]
  · rw [if_neg hab]
    cases ha : map a with
    | none => rfl
    | some e' =>
      have hne : e'.handle ≠ e.handle := fun heq => hab (h.distinct a b e' e ha hb heq)
      rw [any_some, any_some, update_of_ne hne]

theorem served_erase (map : ℕ → Option Entry) (handles : ℕ → Bool) (a b : ℕ) :
    servedBy (Function.update map b none) handles a =
      if a = b then false else servedBy map handles a := by
  unfold servedBy
  by_cases hab : a = b
  · rw [if_pos hab, hab, update_self, any_none]
  · rw [if_neg hab, update_of_ne hab]

end HandlesKept

/-! ## The buffers -/

/-- A call that holds the node of a buffer whose handle it has deleted. -/
def holdsNode (a node : ℕ) (p : Phase) : Prop := p = .freeRuntime a node ∨ p = .freeReply a node

theorem deleted_of_holdsNode {a node : ℕ} {p : Phase} (h : holdsNode a node p) :
    deleted a p = true := by
  rcases h with rfl | rfl <;> simp [deleted]

/-- **What the map owes** to the runtime and to the calls. -/
structure BuffersKept (s : State) : Prop where
  entries : ∀ a, (s.mapBufferHandle a).isSome.toNat + s.calls.countP (allocating a) =
    (s.allocated a).toNat + s.calls.countP (freed a)
  served : ∀ a, (servedBy s.mapBufferHandle s.handles a).toNat + s.calls.countP (deleted a) =
    (s.mapBufferHandle a).isSome.toNat
  handles : HandlesKept s.mapBufferHandle s.handles s.nextHandle
  nodes : ∀ p ∈ s.calls, ∀ a node, holdsNode a node p →
    (s.mapBufferHandle a).map Entry.node = some node

namespace BuffersKept

variable {s s' : State} {n : ℕ} {p : Phase}

theorem initial : BuffersKept State.initial where
  entries := fun _ => rfl
  served := fun _ => rfl
  handles := HandlesKept.initial
  nodes := by
    intro p hp
    exact absurd hp List.not_mem_nil

/-- A call goes on that is to the buffers what it was. -/
theorem goOn (h : BuffersKept s) (hp : s.calls[n]? = some p) (next : Option Phase)
    (hallocating : ∀ a, next.elim false (allocating a) = allocating a p)
    (hdeleted : ∀ a, next.elim false (deleted a) = deleted a p)
    (hfreed : ∀ a, next.elim false (freed a) = freed a p)
    (hnodes : ∀ a node u, next = some u → ¬ holdsNode a node u)
    (hallocated : s'.allocated = s.allocated) (hmap : s'.mapBufferHandle = s.mapBufferHandle)
    (hhandles : s'.handles = s.handles) (hnext : s'.nextHandle = s.nextHandle)
    (hcalls : s'.calls = Threads.move s.calls n next) : BuffersKept s' where
  entries := by
    intro a
    have hentries := h.entries a
    have hcount := count_move hp (allocating a) next
    have hfree := count_move hp (freed a) next
    rw [hallocating] at hcount
    rw [hfreed] at hfree
    rw [hmap, hallocated, hcalls]
    omega
  served := by
    intro a
    have hserved := h.served a
    have hcount := count_move hp (deleted a) next
    rw [hdeleted] at hcount
    rw [hmap, hhandles, hcalls]
    omega
  handles := by
    rw [hmap, hhandles, hnext]
    exact h.handles
  nodes := by
    intro u hu a node hholds
    rw [hcalls] at hu
    rw [hmap]
    rcases mem_move hu with hold | hnew
    · exact h.nodes u hold a node hholds
    · exact absurd hholds (hnodes a node u hnew)

/-- A call begins that is nothing to the buffers yet. -/
theorem begin (h : BuffersKept s) (hallocating : ∀ a, allocating a p = false)
    (hdeleted : ∀ a, deleted a p = false) (hfreed : ∀ a, freed a p = false)
    (hallocated : s'.allocated = s.allocated) (hmap : s'.mapBufferHandle = s.mapBufferHandle)
    (hhandles : s'.handles = s.handles) (hnext : s'.nextHandle = s.nextHandle)
    (hcalls : s'.calls = s.calls ++ [p]) : BuffersKept s' where
  entries := by
    intro a
    rw [hmap, hallocated, hcalls, count_begin, count_begin, hallocating, hfreed]
    exact h.entries a
  served := by
    intro a
    rw [hmap, hhandles, hcalls, count_begin, hdeleted]
    exact h.served a
  handles := by
    rw [hmap, hhandles, hnext]
    exact h.handles
  nodes := by
    intro u hu a node hholds
    rw [hcalls] at hu
    rw [hmap]
    rcases List.mem_append.mp hu with hold | hnew
    · exact h.nodes u hold a node hholds
    · rw [List.mem_singleton.mp hnew] at hholds
      have hdel := deleted_of_holdsNode hholds
      rw [hdeleted] at hdel
      exact absurd hdel Bool.false_ne_true

/-! ## What the equations say -/

variable {b : ℕ}

/-- **One call at most** has deleted the handle, and then the entry is there with it. -/
theorem of_deleted (h : BuffersKept s) (hp : s.calls[n]? = some p) (hdel : deleted b p = true) :
    servedBy s.mapBufferHandle s.handles b = false ∧ (s.mapBufferHandle b).isSome = true ∧
      s.calls.countP (deleted b) = 1 := by
  have hpos := count_pos hp hdel
  have hserved := h.served b
  have hone := (s.mapBufferHandle b).isSome.toNat_le
  refine ⟨?_, ?_, by omega⟩
  · cases hb : servedBy s.mapBufferHandle s.handles b with
    | false => rfl
    | true =>
      rw [hb, Bool.toNat_true] at hserved
      omega
  · cases hb : (s.mapBufferHandle b).isSome with
    | true => rfl
    | false =>
      rw [hb, Bool.toNat_false] at hserved
      omega

/-- Then nobody else holds its node. -/
theorem others (h : BuffersKept s) (hp : s.calls[n]? = some p) (hdel : deleted b p = true)
    {next : Option Phase} (hnext : ∀ node u, next = some u → ¬ holdsNode b node u) {u : Phase}
    (hu : u ∈ Threads.move s.calls n next) {node : ℕ} : ¬ holdsNode b node u := by
  intro hholds
  have hone := (h.of_deleted hp hdel).2.2
  have hend := count_end hp (deleted b)
  rw [hdel, Bool.toNat_true, hone] at hend
  have hrest : (s.calls.eraseIdx n).countP (deleted b) = 0 := by omega
  have hmem : u ∈ s.calls.eraseIdx n := by
    cases next with
    | none => exact hu
    | some v =>
      obtain ⟨hlt, -⟩ := List.getElem?_eq_some_iff.mp hp
      have hperm := (List.set_perm_cons_eraseIdx hlt v).mem_iff.mp hu
      rcases List.mem_cons.mp hperm with rfl | hrest
      · exact absurd hholds (hnext node u rfl)
      · exact hrest
  exact List.countP_eq_zero.mp hrest u hmem (deleted_of_holdsNode hholds)

theorem freed_le (calls : List Phase) (a : ℕ) :
    calls.countP (freed a) ≤ calls.countP (deleted a) := by
  apply List.countP_mono_left
  intro q _ hq
  cases q <;> simp_all [freed, deleted]

theorem mem_goOn {next : Option Phase} {u : Phase} (hu : u ∈ (s.goOn n next).calls) :
    u ∈ s.calls ∨ next = some u :=
  mem_move hu

/-! ## The steps that change the map -/

/-- **The runtime has allocated** a buffer that was not. -/
theorem allocate (h : BuffersKept s) (hfree : s.allocated b = false) (num : ℕ) :
    BuffersKept ({ s with allocated := Function.update s.allocated b true }.begin
      (.allocMatch b num)) where
  entries := by
    intro a
    have hentries := h.entries a
    simp only [State.begin, count_begin, allocating, freed, Bool.toNat_false, Nat.add_zero]
    by_cases hab : a = b
    · subst hab
      rw [hfree, Bool.toNat_false] at hentries
      rw [update_self, decide_eq_true rfl, Bool.toNat_true]
      omega
    · rw [update_of_ne hab, decide_eq_false (Ne.symm hab), Bool.toNat_false]
      omega
  served := by
    intro a
    simp only [State.begin, count_begin, deleted, Bool.toNat_false, Nat.add_zero]
    exact h.served a
  handles := h.handles
  nodes := by
    intro u hu a node hholds
    rcases List.mem_append.mp hu with hold | hnew
    · exact h.nodes u hold a node hholds
    · rw [List.mem_singleton.mp hnew] at hholds
      rcases hholds with heq | heq <;> cases heq

/-- A buffer that is being allocated and that nobody is freeing has no entry. -/
theorem none_of_allocating (h : BuffersKept s) (hp : s.calls[n]? = some p)
    (halloc : allocating b p = true) (hfree : ∀ q ∈ s.calls, freed b q = false) :
    s.mapBufferHandle b = none := by
  have hpos := count_pos hp halloc
  have hentries := h.entries b
  have hzero := count_eq_zero hfree
  have hone := (s.allocated b).toNat_le
  cases hb : s.mapBufferHandle b with
  | none => rfl
  | some e =>
    rw [hb, isSome_some, Bool.toNat_true] at hentries
    omega

/-- **The handle is stored** for a buffer that has no entry. -/
theorem allocStore (h : BuffersKept s) {num : ℕ} (hp : s.calls[n]? = some (.allocStore b num))
    (hfree : ∀ q ∈ s.calls, freed b q = false) (node : ℕ) :
    BuffersKept ((s.store b num node).goOn n (some (.allocReply b s.nextHandle))) where
  entries := by
    intro a
    have hentries := h.entries a
    have halloc := count_move hp (allocating a) (some (.allocReply b s.nextHandle))
    have hfreed := count_move hp (freed a) (some (.allocReply b s.nextHandle))
    simp only [Option.elim, allocating, freed, Bool.toNat_false, Nat.add_zero] at halloc hfreed
    simp only [State.goOn, State.store]
    by_cases hab : a = b
    · subst hab
      -- the runtime has just given the buffer, so there is no entry
      have hnone := h.none_of_allocating hp (by simp [allocating]) hfree
      rw [hnone, isSome_none, Bool.toNat_false] at hentries
      rw [decide_eq_true rfl, Bool.toNat_true] at halloc
      rw [update_self, isSome_some, Bool.toNat_true]
      omega
    · rw [decide_eq_false (Ne.symm hab), Bool.toNat_false] at halloc
      rw [update_of_ne hab]
      omega
  served := by
    intro a
    have hserved := h.served a
    have hcount := count_move hp (deleted a) (some (.allocReply b s.nextHandle))
    simp only [Option.elim, deleted, Bool.toNat_false, Nat.add_zero] at hcount
    simp only [State.goOn, State.store]
    rw [h.handles.served_store]
    by_cases hab : a = b
    · subst hab
      have hnone := h.none_of_allocating hp (by simp [allocating]) hfree
      rw [hnone, isSome_none, Bool.toNat_false] at hserved
      rw [if_pos rfl, update_self, isSome_some, Bool.toNat_true]
      omega
    · rw [if_neg hab, update_of_ne hab]
      omega
  handles := by
    have hnone := h.none_of_allocating hp (by simp [allocating]) hfree
    refine h.handles.store ?_ node num
    unfold servedBy
    rw [hnone]
    rfl
  nodes := by
    have hnone := h.none_of_allocating hp (by simp [allocating]) hfree
    intro u hu a node' hholds
    rcases mem_goOn hu with hold | hnew
    · have hkept := h.nodes u hold a node' hholds
      have hab : a ≠ b := by
        rintro rfl
        rw [hnone] at hkept
        cases hkept
      simp only [State.goOn, State.store]
      rw [update_of_ne hab]
      exact hkept
    · rw [← some.inj hnew] at hholds
      rcases hholds with heq | heq <;> cases heq

/-- **A handle is deleted**, by a call that then frees the buffer or replaces the handle. -/
theorem deleteHandle (h : BuffersKept s) (hp : s.calls[n]? = some p) {next : Phase} {e : Entry}
    (hb : s.mapBufferHandle b = some e) (hserved : servedBy s.mapBufferHandle s.handles b = true)
    (hallocating : ∀ a, allocating a p = false ∧ allocating a next = false)
    (hdeleted : ∀ a, deleted a p = false ∧ deleted a next = decide (b = a))
    (hfreed : ∀ a, freed a p = false ∧ freed a next = false)
    (hnodes : ∀ a node, holdsNode a node next → a = b ∧ node = e.node) :
    BuffersKept ({ s with handles := Function.update s.handles e.handle false }.goOn n
      (some next)) where
  entries := by
    intro a
    have hentries := h.entries a
    have halloc := count_move hp (allocating a) (some next)
    have hfree := count_move hp (freed a) (some next)
    simp only [Option.elim, hallocating a, hfreed a, Bool.toNat_false, Nat.add_zero]
      at halloc hfree
    simp only [State.goOn]
    omega
  served := by
    intro a
    have hold := h.served a
    have hcount := count_move hp (deleted a) (some next)
    simp only [Option.elim, hdeleted a, Bool.toNat_false, Nat.add_zero] at hcount
    simp only [State.goOn]
    rw [h.handles.served_delete hb]
    by_cases hab : a = b
    · subst hab
      rw [hserved, Bool.toNat_true] at hold
      rw [decide_eq_true rfl, Bool.toNat_true] at hcount
      rw [if_pos rfl, Bool.toNat_false]
      omega
    · rw [decide_eq_false (Ne.symm hab), Bool.toNat_false] at hcount
      rw [if_neg hab]
      omega
  handles := h.handles.delete e.handle
  nodes := by
    intro u hu a node hholds
    rcases mem_goOn hu with hold | hnew
    · exact h.nodes u hold a node hholds
    · rw [← some.inj hnew] at hholds
      obtain ⟨rfl, rfl⟩ := hnodes a node hholds
      simp only [State.goOn]
      rw [hb, map_some]

/-- **The buffer is freed** in the runtime. -/
theorem freeRuntime (h : BuffersKept s) {node : ℕ}
    (hp : s.calls[n]? = some (.freeRuntime b node)) :
    BuffersKept ({ s with allocated := Function.update s.allocated b false }.goOn n
      (some (.freeReply b node))) where
  entries := by
    intro a
    have hentries := h.entries a
    have halloc := count_move hp (allocating a) (some (.freeReply b node))
    have hfreed := count_move hp (freed a) (some (.freeReply b node))
    simp only [Option.elim, allocating, freed, Bool.toNat_false, Nat.add_zero] at halloc hfreed
    simp only [State.goOn]
    by_cases hab : a = b
    · subst hab
      obtain ⟨-, hsome, hone⟩ := h.of_deleted (b := a) hp (by simp [deleted])
      -- nobody but this call has deleted the handle
      have hend := count_end hp (freed a)
      have hdel := count_end hp (deleted a)
      have hle := freed_le (s.calls.eraseIdx n) a
      simp only [freed, deleted, decide_true, Bool.toNat_true, Bool.toNat_false, Nat.add_zero]
        at hend hdel
      rw [hsome, Bool.toNat_true] at hentries
      have hbit := (s.allocated a).toNat_le
      rw [decide_eq_true rfl, Bool.toNat_true] at hfreed
      rw [update_self, hsome, Bool.toNat_true, Bool.toNat_false]
      omega
    · rw [decide_eq_false (Ne.symm hab), Bool.toNat_false] at hfreed
      rw [update_of_ne hab]
      omega
  served := by
    intro a
    have hserved := h.served a
    have hcount := count_move hp (deleted a) (some (.freeReply b node))
    simp only [Option.elim, deleted] at hcount
    simp only [State.goOn]
    omega
  handles := h.handles
  nodes := by
    intro u hu a node' hholds
    rcases mem_goOn hu with hold | hnew
    · exact h.nodes u hold a node' hholds
    · rw [← some.inj hnew] at hholds
      refine h.nodes _ (List.mem_of_getElem? hp) a node' ?_
      rcases hholds with heq | heq
      · cases heq
      · cases heq
        exact Or.inl rfl

/-- **The entry is erased.** -/
theorem freeErase (h : BuffersKept s) (hp : s.calls[n]? = some (.freeErase b)) :
    BuffersKept ({ s with
      mapBufferHandle := Function.update s.mapBufferHandle b none }.goOn n none) where
  entries := by
    intro a
    have hentries := h.entries a
    have halloc := count_move hp (allocating a) none
    have hfreed := count_move hp (freed a) none
    simp only [Option.elim, allocating, freed, Bool.toNat_false, Nat.add_zero] at halloc hfreed
    simp only [State.goOn]
    by_cases hab : a = b
    · subst hab
      have hsome := (h.of_deleted (b := a) hp (by simp [deleted])).2.1
      rw [hsome, Bool.toNat_true] at hentries
      rw [decide_eq_true rfl, Bool.toNat_true] at hfreed
      rw [update_self, isSome_none, Bool.toNat_false]
      omega
    · rw [decide_eq_false (Ne.symm hab), Bool.toNat_false] at hfreed
      rw [update_of_ne hab]
      omega
  served := by
    intro a
    have hserved := h.served a
    have hcount := count_move hp (deleted a) none
    simp only [Option.elim, deleted, Bool.toNat_false, Nat.add_zero] at hcount
    simp only [State.goOn]
    rw [HandlesKept.served_erase]
    by_cases hab : a = b
    · subst hab
      have hone := (h.of_deleted (b := a) hp (by simp [deleted])).2.2
      rw [decide_eq_true rfl, Bool.toNat_true] at hcount
      rw [if_pos rfl, update_self, isSome_none, Bool.toNat_false]
      omega
    · rw [decide_eq_false (Ne.symm hab), Bool.toNat_false] at hcount
      rw [if_neg hab, update_of_ne hab]
      omega
  handles := h.handles.erase (h.of_deleted hp (by simp [deleted])).1
  nodes := by
    intro u hu a node hholds
    have hmove : u ∈ Threads.move s.calls n none := hu
    -- no other call holds the node of the buffer
    have hab : a ≠ b := by
      rintro rfl
      exact h.others hp (by simp [deleted]) (fun _ _ heq => by cases heq) hmove hholds
    simp only [State.goOn]
    rw [update_of_ne hab]
    rcases mem_goOn hu with hold | hnew
    · exact h.nodes u hold a node hholds
    · cases hnew

/-- **A completion replaces** the handle it has deleted. -/
theorem notifyStore (h : BuffersKept s) {request num : ℕ}
    (hp : s.calls[n]? = some (.notifyStore request b num)) (node : ℕ) :
    BuffersKept ((s.store b num node).goOn n (some (.notifyCall request b s.nextHandle))) where
  entries := by
    intro a
    have hentries := h.entries a
    have halloc := count_move hp (allocating a)
      (some (.notifyCall request b s.nextHandle))
    have hfreed := count_move hp (freed a) (some (.notifyCall request b s.nextHandle))
    simp only [Option.elim, allocating, freed, Bool.toNat_false, Nat.add_zero] at halloc hfreed
    simp only [State.goOn, State.store]
    by_cases hab : a = b
    · subst hab
      have hsome := (h.of_deleted (b := a) hp (by simp [deleted])).2.1
      rw [hsome] at hentries
      rw [update_self, isSome_some]
      omega
    · rw [update_of_ne hab]
      omega
  served := by
    intro a
    have hserved := h.served a
    have hcount := count_move hp (deleted a)
      (some (.notifyCall request b s.nextHandle))
    simp only [Option.elim, deleted, Bool.toNat_false, Nat.add_zero] at hcount
    simp only [State.goOn, State.store]
    rw [h.handles.served_store]
    by_cases hab : a = b
    · subst hab
      have hone := (h.of_deleted (b := a) hp (by simp [deleted])).2.2
      rw [decide_eq_true rfl, Bool.toNat_true] at hcount
      rw [if_pos rfl, update_self, isSome_some, Bool.toNat_true]
      omega
    · rw [decide_eq_false (Ne.symm hab), Bool.toNat_false] at hcount
      rw [if_neg hab, update_of_ne hab]
      omega
  handles := h.handles.store (h.of_deleted hp (by simp [deleted])).1 node num
  nodes := by
    intro u hu a node' hholds
    have hmove : u ∈ Threads.move s.calls n (some (.notifyCall request b s.nextHandle)) := hu
    have hab : a ≠ b := by
      rintro rfl
      refine h.others hp (by simp [deleted]) ?_ hmove hholds
      intro _ v hv hv'
      rw [← some.inj hv] at hv'
      rcases hv' with heq | heq <;> cases heq
    simp only [State.goOn, State.store]
    rw [update_of_ne hab]
    rcases mem_goOn hu with hold | hnew
    · exact h.nodes u hold a node' hholds
    · rw [← some.inj hnew] at hholds
      rcases hholds with heq | heq <;> cases heq

end BuffersKept

end ExynosVendor.EdenRuntime
