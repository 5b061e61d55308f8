import ExynosVendor.Camera.ResourceManager

/-!
# What may happen to a pointer of a session

No session should point to an object that is gone, a session that is no clone should not
lose a pointer to one that is not, and nothing should be deleted twice.

The law is one of every kind of pointer for itself. So are the things that a call does:
it builds, copies, deletes and releases, and each of these leaves the other kinds alone.
-/

namespace ExynosVendor.Camera.ResourceManager

open Manager
open List Option

variable {s s' s₁ s₂ : Manager} {f g : Field} {i k n : ℕ}

/-! ## The law -/

/-- **What a step should do to the pointers of a kind.** -/
structure LawAt (f : Field) (s s' : Manager) : Prop where
  once : ∀ n, .resource f n ∈ s'.recorded → s'.deleted.count (.resource f n) ≤ 1
  live : ∀ i n, s'.ptr i f = some n → .resource f n ∉ s'.deleted
  kept : ∀ i n, s.cloned i = false → s.ptr i f = some n → .resource f n ∉ s'.deleted →
    s'.ptr i f = some n

/-- **What a step should do**: nothing that is recorded is deleted twice, no session points
to an object that was deleted, and a session that is no clone keeps what it has until it is
deleted. -/
structure Lawful (s s' : Manager) : Prop where
  fields : ∀ f, LawAt f s s'
  converter : ∀ n, .metadataConverter n ∈ s'.recorded →
    s'.deleted.count (.metadataConverter n) ≤ 1

/-! ## What a step leaves alone -/

/-- Two managers are the same as far as the pointers of a kind go. -/
structure SameAt (f : Field) (s s' : Manager) : Prop where
  ptr : ∀ i, s'.ptr i f = s.ptr i f
  deleted : ∀ n, s'.deleted.count (.resource f n) = s.deleted.count (.resource f n)
  recorded : ∀ n, .resource f n ∈ s'.recorded ↔ .resource f n ∈ s.recorded

theorem SameAt.refl (f : Field) (s : Manager) : SameAt f s s :=
  ⟨fun _ => rfl, fun _ => rfl, fun _ => Iff.rfl⟩

theorem SameAt.trans (h : SameAt f s s₁) (h' : SameAt f s₁ s₂) : SameAt f s s₂ where
  ptr i := (h'.ptr i).trans (h.ptr i)
  deleted n := (h'.deleted n).trans (h.deleted n)
  recorded n := (h'.recorded n).trans (h.recorded n)

theorem SameAt.mem_deleted (h : SameAt f s s') (n : ℕ) :
    .resource f n ∈ s'.deleted ↔ .resource f n ∈ s.deleted := by
  rw [← count_pos_iff, ← count_pos_iff, h.deleted]

/-- What is left alone after a step does not matter to the law. -/
theorem SameAt.lawAt_right (h : SameAt f s₁ s₂) : LawAt f s s₂ ↔ LawAt f s s₁ := by
  constructor
  · intro hl
    refine ⟨fun n hn => ?_, fun i n hp => ?_, fun i n hc hp hdel => ?_⟩
    · rw [← h.deleted]
      exact hl.once n ((h.recorded n).mpr hn)
    · rw [← h.mem_deleted]
      exact hl.live i n (by rw [h.ptr, hp])
    · rw [← h.ptr]
      exact hl.kept i n hc hp (by rwa [h.mem_deleted])
  · intro hl
    refine ⟨fun n hn => ?_, fun i n hp => ?_, fun i n hc hp hdel => ?_⟩
    · rw [h.deleted]
      exact hl.once n ((h.recorded n).mp hn)
    · rw [h.mem_deleted]
      exact hl.live i n (by rw [← h.ptr, hp])
    · rw [h.ptr]
      exact hl.kept i n hc hp (by rwa [← h.mem_deleted])

theorem SameAt.lawAt_left (h : SameAt f s s₁) (hcloned : ∀ i, s₁.cloned i = s.cloned i) :
    LawAt f s s' ↔ LawAt f s₁ s' := by
  constructor
  · intro hl
    refine ⟨hl.once, hl.live, fun i n hc hp hdel => ?_⟩
    exact hl.kept i n (by rw [← hcloned, hc]) (by rw [← h.ptr, hp]) hdel
  · intro hl
    refine ⟨hl.once, hl.live, fun i n hc hp hdel => ?_⟩
    exact hl.kept i n (by rw [hcloned, hc]) (by rw [h.ptr, hp]) hdel

theorem SameAt.symm (h : SameAt f s s') : SameAt f s' s where
  ptr i := (h.ptr i).symm
  deleted n := (h.deleted n).symm
  recorded n := (h.recorded n).symm

theorem SameAt.lawAt_self (h : SameAt f s s₁) (hcloned : ∀ i, s₁.cloned i = s.cloned i)
    (hl : LawAt f s s) : LawAt f s₁ s₁ :=
  (h.lawAt_left hcloned).mp (h.lawAt_right.mpr hl)

/-! ## The invariant -/

/-- The kinds that the caller brings along. -/
def Field.given : Field → Bool
  | .bufferSupplier => true
  | .ionAllocator => true
  | _ => false

/-- **What the manager builds next is new**: it has neither deleted nor still has an object
of that number. And it has never deleted a metadata converter that it has, or twice. -/
structure Numbered (s : Manager) : Prop where
  deleted : ∀ f n, f.given = false → .resource f n ∈ s.deleted → n < s.built
  ptr : ∀ i f n, f.given = false → s.ptr i f = some n → n < s.built
  converter : ∀ n, s.m_metadataConverter = some n →
    n < s.built ∧ .metadataConverter n ∉ s.deleted
  converterDeleted : ∀ n, .metadataConverter n ∈ s.deleted → n < s.built
  converterOnce : ∀ n, s.deleted.count (.metadataConverter n) ≤ 1

/-- **What the law makes of the manager.** -/
structure Held (s : Manager) : Prop where
  fields : ∀ f, LawAt f s s
  numbered : Numbered s

theorem held_initial (m_cameraId : Fin CAMERA_ID_MAX) :
    Held (Manager.initial m_cameraId) where
  fields _ := ⟨fun _ hn => absurd hn not_mem_nil,
    fun _ n hp => absurd hp (some_ne_none n).symm, fun _ _ _ hp _ => hp⟩
  numbered := ⟨fun _ _ _ hn => absurd hn not_mem_nil,
    fun _ _ n _ hp => absurd hp (some_ne_none n).symm,
    fun n hn => absurd hn (some_ne_none n).symm,
    fun _ hn => absurd hn not_mem_nil, fun _ => Nat.zero_le 1⟩

theorem Lawful.fields_self (h : Lawful s s') : ∀ f, LawAt f s' s' := by
  intro f
  exact ⟨(h.fields f).once, (h.fields f).live, fun i n _ hp _ => hp⟩

/-- What is left alone stays lawful. -/
theorem Held.lawAt_same (h : Held s) (hsame : SameAt f s s') : LawAt f s s' := by
  rw [hsame.lawAt_right]
  exact h.fields f

/-! ## Writing a pointer -/

theorem ptr_setPtr (s : Manager) (i k : ℕ) (f g : Field) (p : Option ℕ) :
    (s.setPtr i f p).ptr k g = if k = i ∧ g = f then p else s.ptr k g := by
  by_cases hk : k = i
  · subst hk
    by_cases hg : g = f
    · subst hg
      simp [Manager.ptr, setPtr, setResources]
    · simp [Manager.ptr, setPtr, setResources, hg]
  · simp [Manager.ptr, setPtr, setResources, hk]

theorem cloned_setPtr (s : Manager) (i k : ℕ) (f : Field) (p : Option ℕ) :
    (s.setPtr i f p).cloned k = s.cloned k := by
  by_cases hk : k = i
  · subst hk
    simp [Manager.cloned, setPtr, setResources]
  · simp [Manager.cloned, setPtr, setResources, hk]

theorem ptr_setCloned (s : Manager) (i k : ℕ) (b : Bool) (f : Field) :
    (s.setCloned i b).ptr k f = s.ptr k f := by
  by_cases hk : k = i
  · subst hk
    simp [Manager.ptr, setCloned, setResources]
  · simp [Manager.ptr, setCloned, setResources, hk]

theorem sameAt_setPtr (h : g ≠ f) (p : Option ℕ) : SameAt g s (s.setPtr i f p) where
  ptr k := by rw [ptr_setPtr, if_neg fun hk => h hk.2]
  deleted _ := rfl
  recorded _ := Iff.rfl

theorem sameAt_store (h : g ≠ f) : SameAt g s (s.store i f n) where
  ptr := (sameAt_setPtr h (some n)).ptr
  deleted _ := rfl
  recorded m := by
    simp only [store, mem_append, mem_singleton, Object.resource.injEq, or_iff_left_iff_imp]
    rintro ⟨rfl, -⟩
    exact absurd rfl h

/-- **Writing a pointer is lawful** when the object is there, and the session is a clone or
has no other one. -/
theorem lawAt_store_iff (h : LawAt f s s) :
    LawAt f s (s.store i f n) ↔
      .resource f n ∉ s.deleted ∧
        (s.cloned i = false → ∀ m, s.ptr i f = some m → m = n) := by
  have hptr (k : ℕ) : (s.store i f n).ptr k f = if k = i then some n else s.ptr k f := by
    have hset : (s.store i f n).ptr k f = _ := ptr_setPtr s i k f f (some n)
    simpa using hset
  constructor
  · intro hl
    refine ⟨hl.live i n (by rw [hptr, if_pos rfl]), fun hc m hm => ?_⟩
    have hkept := hl.kept i m hc hm (h.live i m hm)
    rw [hptr, if_pos rfl, some.injEq] at hkept
    exact hkept.symm
  · rintro ⟨hlive, hother⟩
    refine ⟨fun m hm => ?_, fun k m hp => ?_, fun k m hc hp hdel => ?_⟩
    · rcases mem_append.mp hm with hold | hnew
      · exact h.once m hold
      · obtain rfl : m = n := by simpa using hnew
        rw [show (s.store i f m).deleted = s.deleted from rfl, count_eq_zero_of_not_mem hlive]
        omega
    · rw [hptr] at hp
      split at hp
      · obtain rfl := some.inj hp
        exact hlive
      · exact h.live k m hp
    · rw [hptr]
      split
      · rename_i hk
        subst hk
        rw [hother hc m hp]
      · exact hp

/-! ## Building -/

variable {fs : List Field}

theorem sameAt_build (h : g ∉ fs) : SameAt g s (build i s fs) := by
  induction fs generalizing s with
  | nil => exact SameAt.refl g s
  | cons f fs ih =>
    rw [mem_cons, not_or] at h
    have hstore : SameAt g s (s.store i f s.built) := sameAt_store h.1
    have hrest := ih (s := { s.store i f s.built with built := s.built + 1 }) h.2
    have hcounted : SameAt g s { s.store i f s.built with built := s.built + 1 } :=
      ⟨hstore.ptr, hstore.deleted, hstore.recorded⟩
    exact hcounted.trans hrest

/-- **What building does**: it deletes nothing, writes to one session only, and numbers what
it builds from where the manager is. -/
structure Built (i : ℕ) (fs : List Field) (s s' : Manager) : Prop where
  built : s.built ≤ s'.built
  deleted : s'.deleted = s.deleted
  m_metadataConverter : s'.m_metadataConverter = s.m_metadataConverter
  cloned : ∀ k, s'.cloned k = s.cloned k
  recorded : ∀ o ∈ s'.recorded, o ∈ s.recorded ∨ ∃ f n, o = .resource f n ∧ s.built ≤ n
  other : ∀ k f, k ≠ i → s'.ptr k f = s.ptr k f
  fresh : ∀ f ∈ fs, ∃ n, s.built ≤ n ∧ n < s'.built ∧ s'.ptr i f = some n

theorem built_build (i : ℕ) (s : Manager) (fs : List Field) : Built i fs s (build i s fs) := by
  induction fs generalizing s with
  | nil =>
    exact ⟨le_refl _, rfl, rfl, fun _ => rfl, fun o ho => Or.inl ho, fun _ _ _ => rfl,
      fun f hf => absurd hf not_mem_nil⟩
  | cons f fs ih =>
    have h := ih { s.store i f s.built with built := s.built + 1 }
    have hbuilt : s.built + 1 ≤ (build i s (f :: fs)).built := h.built
    refine ⟨by omega, h.deleted, h.m_metadataConverter, fun k => ?_, fun o ho => ?_,
      fun k g hk => ?_, fun g hg => ?_⟩
    · exact (h.cloned k).trans (cloned_setPtr s i k f _)
    · rcases h.recorded o ho with hold | ⟨g, n, rfl, hn⟩
      · rcases mem_append.mp hold with hold | hnew
        · exact Or.inl hold
        · exact Or.inr ⟨f, s.built, mem_singleton.mp hnew, le_refl _⟩
      · exact Or.inr ⟨g, n, rfl, Nat.le_of_succ_le hn⟩
    · refine (h.other k g hk).trans ((ptr_setPtr s i k f g _).trans ?_)
      exact if_neg fun hboth => hk hboth.1
    · by_cases hfs : g ∈ fs
      · obtain ⟨n, hn, hlt, hp⟩ := h.fresh g hfs
        exact ⟨n, Nat.le_of_succ_le hn, hlt, hp⟩
      · obtain rfl : g = f := (mem_cons.mp hg).resolve_right hfs
        refine ⟨s.built, le_refl _, by omega, ?_⟩
        refine ((sameAt_build hfs).ptr i).trans ((ptr_setPtr s i i g g _).trans ?_)
        exact if_pos ⟨rfl, rfl⟩

/-- **Building is lawful** when the session is a clone or has nothing there yet. -/
theorem lawAt_build_iff (h : Held s) (hf : f ∈ fs) (hgiven : f.given = false) :
    LawAt f s (build i s fs) ↔ (s.cloned i = false → s.ptr i f = none) := by
  have hb := built_build i s fs
  obtain ⟨n, hn, hlt, hp⟩ := hb.fresh f hf
  have hnew {m : ℕ} (hm : s.built ≤ m) : .resource f m ∉ s.deleted := by
    intro hdel
    have := h.numbered.deleted f m hgiven hdel
    omega
  constructor
  · intro hl hc
    cases hold : s.ptr i f with
    | none => rfl
    | some m =>
      have hlive := (h.fields f).live i m hold
      have hkept := hl.kept i m hc hold (by rwa [hb.deleted])
      have hlt := h.numbered.ptr i f m hgiven hold
      rw [hp, some.injEq] at hkept
      omega
  · intro hnone
    refine ⟨fun m hm => ?_, fun k m hm => ?_, fun k m hc hm _ => ?_⟩
    · rw [hb.deleted]
      rcases hb.recorded _ hm with hold | ⟨g, m', heq, hm'⟩
      · exact (h.fields f).once m hold
      · obtain ⟨rfl, rfl⟩ := Object.resource.inj heq
        rw [count_eq_zero_of_not_mem (hnew hm')]
        omega
    · rw [hb.deleted]
      by_cases hk : k = i
      · subst hk
        rw [hp, some.injEq] at hm
        exact hnew (by omega)
      · rw [hb.other k f hk] at hm
        exact (h.fields f).live k m hm
    · by_cases hk : k = i
      · subst hk
        rw [hnone hc] at hm
        exact absurd hm.symm (some_ne_none m)
      · rw [hb.other k f hk, hm]

/-! ## Deleting the objects of a session -/

/-- **What deleting some pointers of a session does**: each object is deleted once, and the
pointers are cleared. -/
structure Emptied (i : ℕ) (fs : List Field) (s s' : Manager) : Prop where
  built : s'.built = s.built
  m_metadataConverter : s'.m_metadataConverter = s.m_metadataConverter
  m_refCount : s'.m_refCount = s.m_refCount
  recorded : s'.recorded = s.recorded
  cloned : ∀ k, s'.cloned k = s.cloned k
  ptr : ∀ k f, s'.ptr k f = if k = i ∧ f ∈ fs then none else s.ptr k f
  deleted : ∀ f n, s'.deleted.count (.resource f n) =
    s.deleted.count (.resource f n) + if f ∈ fs ∧ s.ptr i f = some n then 1 else 0
  converters : ∀ n, s'.deleted.count (.metadataConverter n) =
    s.deleted.count (.metadataConverter n)

theorem emptied_safeDelete (i : ℕ) (s : Manager) (f : Field) :
    Emptied i [f] s (s.safeDelete i f) := by
  cases hp : s.ptr i f with
  | none =>
    have hsame : s.safeDelete i f = s := by simp only [safeDelete, hp]
    rw [hsame]
    refine ⟨rfl, rfl, rfl, rfl, fun _ => rfl, fun k g => ?_, fun g n => ?_, fun _ => rfl⟩
    · split
      · rename_i hboth
        obtain ⟨rfl, hg⟩ := hboth
        rw [mem_singleton.mp hg, hp]
      · rfl
    · rw [if_neg]
      · rfl
      · rintro ⟨hg, hn⟩
        rw [mem_singleton.mp hg, hp] at hn
        exact absurd hn.symm (some_ne_none n)
  | some n =>
    have hdelete : s.safeDelete i f =
        { s.setPtr i f none with deleted := s.deleted ++ [.resource f n] } := by
      simp only [safeDelete, hp]
    rw [hdelete]
    refine ⟨rfl, rfl, rfl, rfl, fun k => cloned_setPtr s i k f none, fun k g => ?_,
      fun g m => ?_, fun m => ?_⟩
    · refine (ptr_setPtr s i k f g none).trans ?_
      simp only [mem_singleton]
    · change (s.deleted ++ [Object.resource f n]).count (.resource g m) = _
      rw [count_append, count_singleton]
      congr 1
      by_cases hg : g = f
      · subst hg
        simp [hp]
      · simp [hg, Ne.symm hg]
    · change (s.deleted ++ [Object.resource f n]).count (.metadataConverter m) = _
      rw [count_append, count_singleton]
      rfl

theorem Emptied.cons (h : Emptied i [f] s s₁) (h' : Emptied i fs s₁ s₂) :
    Emptied i (f :: fs) s s₂ where
  built := h'.built.trans h.built
  m_metadataConverter := h'.m_metadataConverter.trans h.m_metadataConverter
  m_refCount := h'.m_refCount.trans h.m_refCount
  recorded := h'.recorded.trans h.recorded
  cloned k := (h'.cloned k).trans (h.cloned k)
  ptr k g := by
    rw [h'.ptr, h.ptr]
    by_cases hk : k = i
    · by_cases hg : g = f
      · simp [hk, hg]
      · simp [hk, hg]
    · simp [hk]
  deleted g n := by
    rw [h'.deleted, h.deleted, h.ptr]
    by_cases hg : g = f
    · simp [hg]
    · simp [hg]
  converters n := (h'.converters n).trans (h.converters n)

theorem emptied_foldl (i : ℕ) (s : Manager) (fs : List Field) :
    Emptied i fs s (fs.foldl (fun s f => s.safeDelete i f) s) := by
  induction fs generalizing s with
  | nil =>
    exact ⟨rfl, rfl, rfl, rfl, fun _ => rfl, fun k f => by simp, fun f n => by simp, fun _ => rfl⟩
  | cons f fs ih => exact (emptied_safeDelete i s f).cons (ih (s.safeDelete i f))

theorem mem_fields (f : Field) : f ∈ fields := by
  cases f <;> simp [fields, mem_finRange]

theorem emptied_m_deleteIndex (i : ℕ) (s : Manager) : Emptied i fields s (s.m_deleteIndex i) :=
  emptied_foldl i s fields

/-- **Deleting a session is lawful** when no other session has a pointer of its. -/
theorem lawAt_emptied_iff (h : Held s) (he : Emptied i fields s s') :
    LawAt f s s' ↔ ∀ k n, k ≠ i → s.ptr i f = some n → s.ptr k f ≠ some n := by
  have hmem : f ∈ fields := mem_fields f
  have hdel (n : ℕ) : .resource f n ∈ s'.deleted ↔
      .resource f n ∈ s.deleted ∨ s.ptr i f = some n := by
    rw [← count_pos_iff, ← count_pos_iff, he.deleted]
    by_cases hp : s.ptr i f = some n
    · simp [hp, hmem]
    · simp [hp]
  constructor
  · intro hl k n hk hi hother
    have hp : s'.ptr k f = some n := by
      rw [he.ptr, if_neg fun hboth => hk hboth.1, hother]
    exact hl.live k n hp ((hdel n).mpr (Or.inr hi))
  · intro hothers
    refine ⟨fun n hn => ?_, fun k n hp => ?_, fun k n _ hp hn => ?_⟩
    · rw [he.deleted]
      rw [he.recorded] at hn
      by_cases hp : s.ptr i f = some n
      · rw [count_eq_zero_of_not_mem ((h.fields f).live i n hp)]
        split <;> omega
      · rw [if_neg fun hboth => hp hboth.2]
        exact (h.fields f).once n hn
    · rw [he.ptr] at hp
      split at hp
      · exact absurd hp.symm (some_ne_none n)
      · rename_i hk
        rw [hdel]
        rintro (hold | hi)
        · exact (h.fields f).live k n hp hold
        · exact hothers k n (fun heq => hk ⟨heq, hmem⟩) hi hp
    · rw [he.ptr, if_neg]
      · exact hp
      · rintro ⟨rfl, -⟩
        exact hn ((hdel n).mpr (Or.inr hp))

/-! ## Releasing what the caller points to -/

/-- What is at a place. -/
def Place.value (s : Manager) (f : Field) : Place → Option ℕ
  | .own p => p
  | .slot i => s.ptr i.1 f

/-- The session of a place. -/
def Place.index : Place → Option ℕ
  | .own _ => none
  | .slot i => some i.1

/-- **When releasing is lawful**: the object is not gone, no session that keeps its pointer
has it, and the current session has no other one, unless it is a clone. -/
structure ReleaseMeets (f : Field) (place : Place) (s : Manager) : Prop where
  there : ∀ n, place.value s f = some n → .resource f n ∈ s.recorded → .resource f n ∉ s.deleted
  others : ∀ k n, k ≠ s.m_refCount → place.index ≠ some k →
    place.value s f = some n → s.ptr k f ≠ some n
  current : s.cloned s.m_refCount = false →
    ∀ n, s.ptr s.m_refCount f = some n → place.value s f = some n

theorem release_deleted (f : Field) (place : Place) :
    (s.release f place).deleted =
      s.deleted ++ ((place.value s f).map (Object.resource f)).toList := by
  cases place <;> rfl

theorem release_ptr (f : Field) (place : Place) (k : ℕ) (g : Field) :
    (s.release f place).ptr k g =
      if g = f ∧ (k = s.m_refCount ∨ place.index = some k) then none else s.ptr k g := by
  cases place with
  | own p =>
    refine (ptr_setPtr _ _ k f g none).trans ?_
    simp only [Place.index, reduceCtorEq, or_false, and_comm]
    rfl
  | slot i =>
    refine (ptr_setPtr _ _ k f g none).trans ?_
    rw [ptr_setPtr]
    by_cases hg : g = f
    · by_cases hk : k = i.1
      · simp [Place.index, hg, hk]
      · have hk' : i.1 ≠ k := fun heq => hk heq.symm
        simp only [Place.index, hg, hk, hk', some.injEq, and_true, true_and, or_false,
          if_false]
        rfl
    · simp only [hg, and_false, false_and, if_false]
      rfl

theorem release_cloned (f : Field) (place : Place) (k : ℕ) :
    (s.release f place).cloned k = s.cloned k := by
  cases place with
  | own p => exact cloned_setPtr _ _ k f none
  | slot i =>
    refine (cloned_setPtr _ _ k f none).trans ?_
    exact cloned_setPtr _ _ k f none

theorem release_same (f : Field) (place : Place) :
    (s.release f place).m_refCount = s.m_refCount ∧
      (s.release f place).recorded = s.recorded ∧
      (s.release f place).built = s.built ∧
      (s.release f place).m_metadataConverter = s.m_metadataConverter := by
  cases place <;> exact ⟨rfl, rfl, rfl, rfl⟩

theorem count_release (f g : Field) (place : Place) (n : ℕ) :
    (s.release f place).deleted.count (.resource g n) =
      s.deleted.count (.resource g n) + if g = f ∧ place.value s f = some n then 1 else 0 := by
  rw [release_deleted, count_append]
  congr 1
  cases place.value s f with
  | none => simp
  | some m =>
    rw [map_some, toList_some, count_singleton]
    by_cases hg : g = f
    · subst hg
      simp
    · simp [hg, Ne.symm hg]

theorem sameAt_release (h : g ≠ f) (place : Place) : SameAt g s (s.release f place) where
  ptr k := by rw [release_ptr, if_neg fun hboth => h hboth.1]
  deleted n := by rw [count_release, if_neg fun hboth => h hboth.1, Nat.add_zero]
  recorded n := by rw [(release_same f place).2.1]

theorem lawAt_release_iff (h : LawAt f s s) (place : Place) :
    LawAt f s (s.release f place) ↔ ReleaseMeets f place s := by
  have hdel (n : ℕ) : .resource f n ∈ (s.release f place).deleted ↔
      .resource f n ∈ s.deleted ∨ place.value s f = some n := by
    rw [← count_pos_iff, ← count_pos_iff, count_release]
    by_cases hp : place.value s f = some n
    · simp [hp]
    · simp [hp]
  constructor
  · intro hl
    refine ⟨fun n hn hrec hold => ?_, fun k n hk hplace hn hp => ?_, fun hc n hp => ?_⟩
    · have honce := hl.once n (by rwa [(release_same f place).2.1])
      rw [count_release, if_pos ⟨rfl, hn⟩] at honce
      have := count_pos_iff.mpr hold
      omega
    · refine hl.live k n ?_ ((hdel n).mpr (Or.inr hn))
      rw [release_ptr, if_neg, hp]
      rintro ⟨-, hcur | hindex⟩
      · exact hk hcur
      · exact hplace hindex
    · by_contra hn
      have hlive : .resource f n ∉ (s.release f place).deleted := by
        rw [hdel]
        rintro (hold | hvalue)
        · exact h.live _ n hp hold
        · exact hn hvalue
      have hkept := hl.kept _ n hc hp hlive
      rw [release_ptr, if_pos ⟨rfl, Or.inl rfl⟩] at hkept
      exact absurd hkept.symm (some_ne_none n)
  · intro hm
    refine ⟨fun n hn => ?_, fun k n hp => ?_, fun k n hc hp hn => ?_⟩
    · rw [(release_same f place).2.1] at hn
      rw [count_release]
      by_cases hvalue : place.value s f = some n
      · rw [count_eq_zero_of_not_mem (hm.there n hvalue hn)]
        split <;> omega
      · rw [if_neg fun hboth => hvalue hboth.2]
        exact h.once n hn
    · rw [release_ptr] at hp
      split at hp
      · exact absurd hp.symm (some_ne_none n)
      · rename_i hk
        have hk := not_or.mp fun hboth => hk ⟨rfl, hboth⟩
        rw [hdel]
        rintro (hold | hvalue)
        · exact h.live k n hp hold
        · exact hm.others k n hk.1 hk.2 hvalue hp
    · have hvalue : place.value s f ≠ some n := fun heq => hn ((hdel n).mpr (Or.inr heq))
      rw [release_ptr, if_neg]
      · exact hp
      · rintro ⟨-, rfl | hindex⟩
        · exact hvalue (hm.current hc n hp)
        · cases place with
          | own p => exact absurd hindex.symm (some_ne_none k)
          | slot i =>
            obtain rfl : i.1 = k := some.inj hindex
            exact hvalue hp

/-- What is left alone does not matter to what may be released. -/
theorem ReleaseMeets.congr {place : Place} (h : ReleaseMeets f place s) (hsame : SameAt f s s₁)
    (hcloned : ∀ i, s₁.cloned i = s.cloned i) (hcount : s₁.m_refCount = s.m_refCount) :
    ReleaseMeets f place s₁ := by
  have hvalue : place.value s₁ f = place.value s f := by
    cases place with
    | own p => rfl
    | slot i => exact hsame.ptr i.1
  refine ⟨fun n hn hrec => ?_, fun k n hk hindex hn => ?_, fun hc n hp => ?_⟩
  · rw [hsame.mem_deleted]
    exact h.there n (hvalue ▸ hn) ((hsame.recorded n).mp hrec)
  · rw [hsame.ptr]
    exact h.others k n (hcount ▸ hk) hindex (hvalue ▸ hn)
  · rw [hvalue]
    rw [hcloned, hcount] at hc
    rw [hsame.ptr, hcount] at hp
    exact h.current hc n hp

end ExynosVendor.Camera.ResourceManager
