import ExynosVendor.Camera.ResourceLaw
import ExynosVendor.Common.Run

/-!
# Who deletes the resources of the sessions

Every object that is recorded in the manager should be deleted once, by a call or by the
destructor. The calls keep the law of the pointers under a condition on the manager that
they find; and in the end everything has to be where the destructor looks for it.
-/

namespace ExynosVendor.Camera.ResourceManager

open Manager
open List

variable {s s' : Manager} {f : Field} {i n : ℕ}

/-! ## The numbers of the objects -/

variable {fs : List Field}

theorem Built.numbered (hb : Built i fs s s') (h : Numbered s)
    (hsame : ∀ f, f ∉ fs → s'.ptr i f = s.ptr i f) : Numbered s' where
  deleted f n hgiven hn := by
    rw [hb.deleted] at hn
    exact lt_of_lt_of_le (h.deleted f n hgiven hn) hb.built
  ptr k f n hgiven hn := by
    by_cases hk : k = i
    · subst hk
      by_cases hf : f ∈ fs
      · obtain ⟨m, -, hlt, hp⟩ := hb.fresh f hf
        rw [hp, Option.some.injEq] at hn
        omega
      · rw [hsame f hf] at hn
        exact lt_of_lt_of_le (h.ptr k f n hgiven hn) hb.built
    · rw [hb.other k f hk] at hn
      exact lt_of_lt_of_le (h.ptr k f n hgiven hn) hb.built
  converter n hn := by
    rw [hb.m_metadataConverter] at hn
    rw [hb.deleted]
    exact ⟨lt_of_lt_of_le (h.converter n hn).1 hb.built, (h.converter n hn).2⟩
  converterDeleted n hn := by
    rw [hb.deleted] at hn
    exact lt_of_lt_of_le (h.converterDeleted n hn) hb.built
  converterOnce n := by
    rw [hb.deleted]
    exact h.converterOnce n

theorem numbered_build (i : ℕ) (fs : List Field) (h : Numbered s) : Numbered (build i s fs) :=
  (built_build i s fs).numbered h fun _ hf => (sameAt_build hf).ptr i

theorem Emptied.numbered (he : Emptied i fs s s') (h : Numbered s) :
    Numbered s' := by
  have hconverters (n : ℕ) : .metadataConverter n ∈ s'.deleted ↔
      .metadataConverter n ∈ s.deleted := by
    rw [← count_pos_iff, ← count_pos_iff, he.converters]
  refine ⟨fun f n hgiven hn => ?_, fun k f n hgiven hn => ?_, fun n hn => ?_, fun n hn => ?_,
    fun n => ?_⟩
  · rw [he.built]
    rw [← count_pos_iff, he.deleted] at hn
    split at hn
    · rename_i hboth
      exact h.ptr i f n hgiven hboth.2
    · exact h.deleted f n hgiven (count_pos_iff.mp hn)
  · rw [he.built]
    rw [he.ptr] at hn
    split at hn
    · exact absurd hn.symm (Option.some_ne_none n)
    · exact h.ptr k f n hgiven hn
  · rw [he.m_metadataConverter] at hn
    rw [he.built, hconverters]
    exact h.converter n hn
  · rw [he.built]
    exact h.converterDeleted n ((hconverters n).mp hn)
  · rw [he.converters]
    exact h.converterOnce n

/-- What only touches kinds that the caller brings along leaves the numbers alone. -/
theorem Numbered.of_sameAt (h : Numbered s) (hsame : ∀ f, f.given = false → SameAt f s s')
    (hbuilt : s'.built = s.built) (hconv : s'.m_metadataConverter = s.m_metadataConverter)
    (hcount : ∀ n, s'.deleted.count (.metadataConverter n) =
      s.deleted.count (.metadataConverter n)) : Numbered s' := by
  have hconverters (n : ℕ) : .metadataConverter n ∈ s'.deleted ↔
      .metadataConverter n ∈ s.deleted := by
    rw [← count_pos_iff, ← count_pos_iff, hcount]
  refine ⟨fun f n hgiven hn => ?_, fun k f n hgiven hn => ?_, fun n hn => ?_, fun n hn => ?_,
    fun n => ?_⟩
  · rw [hbuilt]
    exact h.deleted f n hgiven (((hsame f hgiven).mem_deleted n).mp hn)
  · rw [hbuilt]
    rw [(hsame f hgiven).ptr] at hn
    exact h.ptr k f n hgiven hn
  · rw [hconv] at hn
    rw [hbuilt, hconverters]
    exact h.converter n hn
  · rw [hbuilt]
    exact h.converterDeleted n ((hconverters n).mp hn)
  · rw [hcount]
    exact h.converterOnce n

theorem numbered_store (hgiven : f.given) (h : Numbered s) : Numbered (s.store i f n) := by
  refine h.of_sameAt (fun g hg => sameAt_store ?_) rfl rfl fun _ => rfl
  rintro rfl
  rw [hgiven] at hg
  exact Bool.noConfusion hg

theorem numbered_release (hgiven : f.given) (place : Place) (h : Numbered s) :
    Numbered (s.release f place) := by
  obtain ⟨-, -, hbuilt, hconv⟩ := release_same (s := s) f place
  refine h.of_sameAt (fun g hg => sameAt_release ?_ place) hbuilt hconv fun n => ?_
  · rintro rfl
    rw [hgiven] at hg
    exact Bool.noConfusion hg
  · rw [release_deleted, count_append]
    cases place.value s f with
    | none => rfl
    | some m =>
      rw [Option.map_some, Option.toList_some, count_singleton]
      rfl

theorem numbered_deleteConverter (h : Numbered s) : Numbered s.deleteConverter := by
  cases hconv : s.m_metadataConverter with
  | none =>
    have hsame : s.deleteConverter = s := by simp only [deleteConverter, hconv]
    rw [hsame]
    exact h
  | some m =>
    have hdelete : s.deleteConverter = { s with
        m_metadataConverter := none
        deleted := s.deleted ++ [.metadataConverter m] } := by
      simp only [deleteConverter, hconv]
    rw [hdelete]
    obtain ⟨hlt, hlive⟩ := h.converter m hconv
    refine ⟨fun f n hgiven hn => ?_, h.ptr, fun n hn => ?_, fun n hn => ?_, fun n => ?_⟩
    · exact h.deleted f n hgiven (by simpa using hn)
    · exact absurd hn.symm (Option.some_ne_none n)
    · rcases mem_append.mp hn with hold | hnew
      · exact h.converterDeleted n hold
      · obtain rfl : n = m := by simpa using hnew
        exact hlt
    · rw [count_append, count_singleton]
      by_cases hn : n = m
      · subst hn
        rw [count_eq_zero_of_not_mem hlive]
        simp
      · have honce := h.converterOnce n
        have hne : (Object.metadataConverter m == Object.metadataConverter n) = false := by
          simpa using fun heq => hn heq.symm
        rw [hne]
        exact honce

/-! ## Every call -/

/-- What a session needs for `initResources`. -/
def needed (s : Manager) (info : CameraIdInfo) : List Field :=
  .configuration :: (s.sensors info).map .parameters

/-- The selectors of `initCaptureProperty`. -/
def selectors (info : CameraIdInfo) : List Field :=
  info.cameraId.map .frameSelector ++ [.zslFrameSelector]

/-- **When a call keeps the law.** What it writes to a session that is no clone has nothing
there yet; what it copies there is what was there; what it deletes no other session points
to, and what it registers is not gone. -/
def Meets (s : Manager) : Call → Prop
  | .initResources info =>
      s.cloned s.nextIndex = false → ∀ f ∈ needed s info, s.ptr s.nextIndex f = none
  | .deInitResources => True
  | .cloneResources i =>
      s.cloned i.1 = false → ∀ f n, copied f → s.ptr i.1 f = some n →
        s.ptr s.m_refCount f = some n
  | .deleteResources i =>
      ∀ f k n, k ≠ i.1 → s.ptr i.1 f = some n → s.ptr k f ≠ some n
  | .initManagerResources request stream _ =>
      s.cloned s.m_refCount = false →
        ∀ f ∈ asked request stream, s.ptr s.m_refCount f = none
  | .initBufferSupplier (some supplier) (some allocator) =>
      (.resource .bufferSupplier supplier ∉ s.deleted ∧
        .resource .ionAllocator allocator ∉ s.deleted) ∧
      (s.cloned s.m_refCount = false →
        (∀ n, s.ptr s.m_refCount .bufferSupplier = some n → n = supplier) ∧
        ∀ n, s.ptr s.m_refCount .ionAllocator = some n → n = allocator)
  | .initBufferSupplier _ _ => True
  | .deInitBufferSupplier pBufferSupplier pIonAllocator =>
      ReleaseMeets .bufferSupplier pBufferSupplier s ∧
        ReleaseMeets .ionAllocator pIonAllocator s
  | .initCaptureProperty info =>
      s.ptr s.m_refCount .bufferSupplier ≠ none → s.m_frameMgr →
        s.ptr s.m_refCount (.parameters s.m_cameraId) ≠ none →
        s.cloned s.m_refCount = false → ∀ f ∈ selectors info, s.ptr s.m_refCount f = none

theorem lawful_iff_fields (h : Numbered s') : Lawful s s' ↔ ∀ f, LawAt f s s' :=
  ⟨Lawful.fields, fun hl => ⟨hl, fun n _ => h.converterOnce n⟩⟩

theorem lawful_same (h : Held s) (hn : Numbered s') (hsame : ∀ f, SameAt f s s') :
    Lawful s s' :=
  (lawful_iff_fields hn).mpr fun f => h.lawAt_same (hsame f)

/-- Building, and nothing else that matters. -/
theorem lawful_build_iff (h : Held s) (hn : Numbered s') (hgiven : ∀ f ∈ fs, f.given = false)
    (hsame : ∀ f, SameAt f (build i s fs) s') :
    Lawful s s' ↔ (s.cloned i = false → ∀ f ∈ fs, s.ptr i f = none) := by
  rw [lawful_iff_fields hn]
  constructor
  · intro hl hc f hf
    exact (lawAt_build_iff h hf (hgiven f hf)).mp ((hsame f).lawAt_right.mp (hl f)) hc
  · intro hnone f
    rw [(hsame f).lawAt_right]
    by_cases hf : f ∈ fs
    · exact (lawAt_build_iff h hf (hgiven f hf)).mpr fun hc => hnone hc f hf
    · exact h.lawAt_same (sameAt_build hf)

theorem sameAt_initResources (f : Field) (info : CameraIdInfo) :
    SameAt f (build s.nextIndex { s with m_refCount := s.nextIndex } (needed s info))
      (s.initResources info) where
  ptr k := ptr_setCloned _ _ k false f
  deleted _ := rfl
  recorded n := by
    simp [initResources, setCloned, setResources, needed, sensors]

theorem numbered_initResources (info : CameraIdInfo) (h : Numbered s) :
    Numbered (s.initResources info) := by
  have h₀ : Numbered { s with m_refCount := s.nextIndex } :=
    ⟨h.deleted, h.ptr, h.converter, h.converterDeleted, h.converterOnce⟩
  have hb := numbered_build s.nextIndex (needed s info) h₀
  have hsame (f : Field) := sameAt_initResources (s := s) f info
  refine ⟨fun f n hgiven hn => ?_, fun k f n hgiven hn => ?_, fun n hn => ?_, fun n hn => ?_,
    hb.converterOnce⟩
  · exact Nat.lt_succ_of_lt (hb.deleted f n hgiven (((hsame f).mem_deleted n).mp hn))
  · rw [(hsame f).ptr] at hn
    exact Nat.lt_succ_of_lt (hb.ptr k f n hgiven hn)
  · obtain rfl := Option.some.inj hn
    exact ⟨Nat.lt_succ_self _, fun hdel => lt_irrefl _ (hb.converterDeleted _ hdel)⟩
  · exact Nat.lt_succ_of_lt (hb.converterDeleted n hn)

theorem ptr_cloneResources (i : Session) (k : ℕ) (f : Field) :
    (s.cloneResources i).ptr k f =
      if k = i.1 ∧ copied f then s.ptr s.m_refCount f else s.ptr k f := by
  have hindex : ¬ RESOURCE_MAX ≤ i.1 := by
    have := i.2.2
    omega
  by_cases hk : k = i.1
  · subst hk
    simp [cloneResources, hindex, Manager.ptr, setResources]
  · simp [cloneResources, hindex, Manager.ptr, setResources, hk]

theorem lawAt_cloneResources_iff (i : Session) (h : Held s) :
    LawAt f s (s.cloneResources i) ↔
      (s.cloned i.1 = false → ∀ n, copied f → s.ptr i.1 f = some n →
        s.ptr s.m_refCount f = some n) := by
  constructor
  · intro hl hc n hcopied hp
    have hkept := hl.kept i.1 n hc hp ((h.fields f).live _ n hp)
    rwa [ptr_cloneResources, if_pos ⟨rfl, hcopied⟩] at hkept
  · intro hkept
    refine ⟨(h.fields f).once, fun k n hp => ?_, fun k n hc hp _ => ?_⟩
    · rw [ptr_cloneResources] at hp
      split at hp
      · exact (h.fields f).live _ n hp
      · exact (h.fields f).live k n hp
    · rw [ptr_cloneResources]
      split
      · rename_i hboth
        obtain ⟨rfl, hcopied⟩ := hboth
        exact hkept hc n hcopied hp
      · exact hp

theorem numbered_cloneResources (i : Session) (h : Numbered s) :
    Numbered (s.cloneResources i) := by
  refine ⟨h.deleted, fun k f n hgiven hn => ?_, h.converter, h.converterDeleted,
    h.converterOnce⟩
  rw [ptr_cloneResources] at hn
  split at hn
  · exact h.ptr _ f n hgiven hn
  · exact h.ptr k f n hgiven hn

theorem numbered_call (c : Call) (h : Numbered s) : Numbered (s.call c) := by
  cases c with
  | initResources info => exact numbered_initResources info h
  | deInitResources => exact numbered_deleteConverter h
  | cloneResources i => exact numbered_cloneResources i h
  | deleteResources i => exact (emptied_m_deleteIndex i.1 s).numbered h
  | initManagerResources request stream frame =>
    have hb := numbered_build s.m_refCount (asked request stream) h
    exact ⟨hb.deleted, hb.ptr, hb.converter, hb.converterDeleted, hb.converterOnce⟩
  | initBufferSupplier pBufferSupplier pIonAllocator =>
    cases pBufferSupplier with
    | none => exact ⟨h.deleted, h.ptr, h.converter, h.converterDeleted, h.converterOnce⟩
    | some supplier =>
      cases pIonAllocator with
      | none => exact ⟨h.deleted, h.ptr, h.converter, h.converterDeleted, h.converterOnce⟩
      | some allocator => exact numbered_store rfl (numbered_store rfl h)
  | deInitBufferSupplier pBufferSupplier pIonAllocator =>
    exact numbered_release rfl pIonAllocator (numbered_release rfl pBufferSupplier h)
  | initCaptureProperty info =>
    change Numbered (s.initCaptureProperty info)
    simp only [initCaptureProperty]
    split
    · exact ⟨h.deleted, h.ptr, h.converter, h.converterDeleted, h.converterOnce⟩
    · exact numbered_build _ _ h

theorem initBufferSupplier_lawful_iff (supplier allocator : ℕ) (h : Held s) :
    Lawful s (s.call (.initBufferSupplier (some supplier) (some allocator))) ↔
      Meets s (.initBufferSupplier (some supplier) (some allocator)) := by
  rw [lawful_iff_fields (numbered_call _ h.numbered)]
  -- Each half of the call leaves the pointers of the other alone.
  let s₁ := s.store s.m_refCount .bufferSupplier supplier
  let s₂ := s₁.store s₁.m_refCount .ionAllocator allocator
  have hcloned (k : ℕ) : s₁.cloned k = s.cloned k := cloned_setPtr s _ k _ _
  have hion : SameAt .ionAllocator s s₁ := sameAt_store (by simp)
  have hself := hion.lawAt_self hcloned (h.fields .ionAllocator)
  have hfirst : LawAt .bufferSupplier s s₂ ↔ LawAt .bufferSupplier s s₁ :=
    SameAt.lawAt_right (sameAt_store (by simp))
  have hsecond : LawAt .ionAllocator s s₂ ↔ LawAt .ionAllocator s₁ s₂ :=
    hion.lawAt_left hcloned
  rw [lawAt_store_iff (h.fields .bufferSupplier)] at hfirst
  rw [lawAt_store_iff hself, hcloned, hion.ptr] at hsecond
  constructor
  · intro hl
    obtain ⟨hlive, hother⟩ := hfirst.mp (hl .bufferSupplier)
    obtain ⟨hlive', hother'⟩ := hsecond.mp (hl .ionAllocator)
    exact ⟨⟨hlive, hlive'⟩, fun hc => ⟨hother hc, hother' hc⟩⟩
  · rintro ⟨⟨hlive, hlive'⟩, hother⟩ f
    by_cases hf : f = .bufferSupplier
    · subst hf
      exact hfirst.mpr ⟨hlive, fun hc => (hother hc).1⟩
    · by_cases hf' : f = .ionAllocator
      · subst hf'
        exact hsecond.mpr ⟨hlive', fun hc => (hother hc).2⟩
      · exact h.lawAt_same ((sameAt_store hf).trans (sameAt_store hf'))

theorem deInitBufferSupplier_lawful_iff (pBufferSupplier pIonAllocator : Place) (h : Held s) :
    Lawful s (s.call (.deInitBufferSupplier pBufferSupplier pIonAllocator)) ↔
      Meets s (.deInitBufferSupplier pBufferSupplier pIonAllocator) := by
  rw [lawful_iff_fields (numbered_call _ h.numbered)]
  let s₁ := s.release .bufferSupplier pBufferSupplier
  let s₂ := s₁.release .ionAllocator pIonAllocator
  have hcloned (k : ℕ) : s₁.cloned k = s.cloned k := release_cloned _ _ k
  have hcount : s₁.m_refCount = s.m_refCount := (release_same _ _).1
  have hion : SameAt .ionAllocator s s₁ := sameAt_release (by simp) _
  have hself := hion.lawAt_self hcloned (h.fields .ionAllocator)
  have hfirst : LawAt .bufferSupplier s s₂ ↔ LawAt .bufferSupplier s s₁ :=
    SameAt.lawAt_right (sameAt_release (by simp) _)
  have hsecond : LawAt .ionAllocator s s₂ ↔ LawAt .ionAllocator s₁ s₂ :=
    hion.lawAt_left hcloned
  rw [lawAt_release_iff (h.fields .bufferSupplier)] at hfirst
  rw [lawAt_release_iff hself] at hsecond
  constructor
  · intro hl
    refine ⟨hfirst.mp (hl .bufferSupplier), ?_⟩
    exact (hsecond.mp (hl .ionAllocator)).congr hion.symm (fun k => (hcloned k).symm) hcount.symm
  · rintro ⟨hsupplier, hallocator⟩ f
    by_cases hf : f = .bufferSupplier
    · subst hf
      exact hfirst.mpr hsupplier
    · by_cases hf' : f = .ionAllocator
      · subst hf'
        exact hsecond.mpr (hallocator.congr hion hcloned hcount)
      · exact h.lawAt_same ((sameAt_release hf _).trans (sameAt_release hf' _))

theorem initResources_lawful_iff (info : CameraIdInfo) (h : Held s) :
    Lawful s (s.initResources info) ↔ Meets s (.initResources info) := by
  have hsame (f : Field) := sameAt_initResources (s := s) f info
  have h₀ : Held { s with m_refCount := s.nextIndex } :=
    ⟨fun f => ⟨(h.fields f).once, (h.fields f).live, (h.fields f).kept⟩,
      h.numbered.deleted, h.numbered.ptr, h.numbered.converter, h.numbered.converterDeleted,
      h.numbered.converterOnce⟩
  have hgiven : ∀ f ∈ needed s info, f.given = false := by
    intro f hf
    rcases mem_cons.mp hf with rfl | hf
    · rfl
    · obtain ⟨j, -, rfl⟩ := mem_map.mp hf
      rfl
  have hbuild := lawful_build_iff h₀ (numbered_initResources info h.numbered) hgiven hsame
  have hleft : Lawful s (s.initResources info) ↔
      Lawful { s with m_refCount := s.nextIndex } (s.initResources info) :=
    ⟨fun hl => ⟨fun f => ⟨(hl.fields f).once, (hl.fields f).live, (hl.fields f).kept⟩,
        hl.converter⟩,
      fun hl => ⟨fun f => ⟨(hl.fields f).once, (hl.fields f).live, (hl.fields f).kept⟩,
        hl.converter⟩⟩
  rw [hleft, hbuild]
  exact Iff.rfl

theorem initManagerResources_lawful_iff (request stream frame : Bool) (h : Held s) :
    Lawful s (s.initManagerResources request stream frame) ↔
      Meets s (.initManagerResources request stream frame) := by
  have hgiven : ∀ f ∈ asked request stream, f.given = false := by
    intro f hf
    rcases mem_append.mp hf with hf | hf
    · split at hf
      · rw [mem_singleton.mp hf]
        rfl
      · exact absurd hf not_mem_nil
    · split at hf
      · rw [mem_singleton.mp hf]
        rfl
      · exact absurd hf not_mem_nil
  have hn := numbered_call (.initManagerResources request stream frame) h.numbered
  exact lawful_build_iff h hn hgiven fun f => ⟨fun _ => rfl, fun _ => rfl, fun _ => Iff.rfl⟩

theorem initCaptureProperty_lawful_iff (info : CameraIdInfo) (h : Held s) :
    Lawful s (s.initCaptureProperty info) ↔ Meets s (.initCaptureProperty info) := by
  have hn := numbered_call (.initCaptureProperty info) h.numbered
  have hgiven : ∀ f ∈ selectors info, f.given = false := by
    intro f hf
    rcases mem_append.mp hf with hf | hf
    · obtain ⟨j, -, rfl⟩ := mem_map.mp hf
      rfl
    · rw [mem_singleton.mp hf]
      rfl
  by_cases hassert : s.ptr s.m_refCount .bufferSupplier = none ∨ s.m_frameMgr = false ∨
      s.ptr s.m_refCount (.parameters s.m_cameraId) = none
  · have haborted : s.initCaptureProperty info = { s with aborted := true } := if_pos hassert
    rw [haborted]
    refine iff_of_true (lawful_same h ?_ fun f => ⟨fun _ => rfl, fun _ => rfl, fun _ => Iff.rfl⟩) ?_
    · exact ⟨h.numbered.deleted, h.numbered.ptr, h.numbered.converter,
        h.numbered.converterDeleted, h.numbered.converterOnce⟩
    · intro hsupplier hframe hparameters
      rcases hassert with hnone | hnone | hnone
      · exact absurd hnone hsupplier
      · rw [hnone] at hframe
        exact Bool.noConfusion hframe
      · exact absurd hnone hparameters
  · have hbuild : s.initCaptureProperty info = build s.m_refCount s (selectors info) :=
      if_neg hassert
    change Numbered (s.initCaptureProperty info) at hn
    rw [hbuild] at hn ⊢
    rw [lawful_build_iff h hn hgiven fun f => SameAt.refl f _]
    simp only [not_or, Bool.not_eq_false] at hassert
    constructor
    · intro hnone _ _ _
      exact hnone
    · intro hmeets
      exact hmeets hassert.1 hassert.2.1 hassert.2.2

theorem sameAt_deleteConverter (f : Field) (s : Manager) : SameAt f s s.deleteConverter := by
  unfold deleteConverter
  split
  · exact SameAt.refl f s
  · exact ⟨fun _ => rfl, fun n => by simp [count_append], fun _ => Iff.rfl⟩

theorem lawful_call_iff (c : Call) (h : Held s) : Lawful s (s.call c) ↔ Meets s c := by
  cases c with
  | initResources info => exact initResources_lawful_iff info h
  | deInitResources =>
    refine iff_of_true ?_ trivial
    exact lawful_same h (numbered_call .deInitResources h.numbered) fun f =>
      sameAt_deleteConverter f s
  | cloneResources i =>
    rw [lawful_iff_fields (numbered_call (.cloneResources i) h.numbered)]
    constructor
    · intro hl hc f n hcopied hp
      exact (lawAt_cloneResources_iff i h).mp (hl f) hc n hcopied hp
    · intro hmeets f
      exact (lawAt_cloneResources_iff i h).mpr fun hc n hcopied hp => hmeets hc f n hcopied hp
  | deleteResources i =>
    rw [lawful_iff_fields (numbered_call (.deleteResources i) h.numbered)]
    have he := emptied_m_deleteIndex i.1 s
    exact forall_congr' fun f => lawAt_emptied_iff h he
  | initManagerResources request stream frame =>
    exact initManagerResources_lawful_iff request stream frame h
  | initBufferSupplier pBufferSupplier pIonAllocator =>
    have hsame (s' : Manager) (hs' : s' = { s with aborted := true }) : Lawful s s' := by
      subst hs'
      refine lawful_same h ?_ fun f => ⟨fun _ => rfl, fun _ => rfl, fun _ => Iff.rfl⟩
      exact ⟨h.numbered.deleted, h.numbered.ptr, h.numbered.converter,
        h.numbered.converterDeleted, h.numbered.converterOnce⟩
    cases pBufferSupplier with
    | none => exact iff_of_true (hsame _ rfl) trivial
    | some supplier =>
      cases pIonAllocator with
      | none => exact iff_of_true (hsame _ rfl) trivial
      | some allocator => exact initBufferSupplier_lawful_iff supplier allocator h
  | deInitBufferSupplier pBufferSupplier pIonAllocator =>
    exact deInitBufferSupplier_lawful_iff pBufferSupplier pIonAllocator h
  | initCaptureProperty info => exact initCaptureProperty_lawful_iff info h

theorem lawful_next_iff (c : Call) (h : Held s) :
    Lawful s (next s c) ↔ (s.aborted = false → Meets s c) := by
  unfold next
  cases hab : s.aborted with
  | true =>
    rw [if_pos rfl]
    exact iff_of_true (lawful_same h h.numbered fun f => SameAt.refl f s) (by simp)
  | false =>
    rw [if_neg Bool.false_ne_true, lawful_call_iff c h]
    simp

theorem Held.next (c : Call) (h : Held s) (hl : Lawful s (next s c)) : Held (next s c) := by
  refine ⟨hl.fields_self, ?_⟩
  unfold ResourceManager.next
  split
  · exact h.numbered
  · exact numbered_call c h.numbered

/-! ## The destructor -/

/-- **Nothing is left over**: after the destructor every object that was recorded was
deleted, and only once. -/
def DeletedOnce (s : Manager) : Prop :=
  s.aborted = false → ∀ o ∈ s.recorded, s.m_delete.deleted.count o = 1

/-- An element is the only one of a list with a property when there is one. -/
theorem countP_eq_one_iff {α : Type*} {l : List α} (hnodup : l.Nodup) (p : α → Bool) :
    l.countP p = 1 ↔ ∃! a, a ∈ l ∧ p a := by
  constructor
  · intro h
    rw [countP_eq_length_filter, length_eq_one_iff] at h
    obtain ⟨a, ha⟩ := h
    have hmem (x : α) : x ∈ l ∧ p x ↔ x = a := by
      rw [← mem_filter, ha, mem_singleton]
    exact ⟨a, (hmem a).mpr rfl, fun y hy => (hmem y).mp hy⟩
  · rintro ⟨a, ha, hunique⟩
    have hsub : l.filter p ⊆ [a] := fun x hx => by
      rw [mem_singleton]
      exact hunique x (mem_filter.mp hx)
    have hle := (subperm_of_subset (hnodup.filter p) hsub).length_le
    have hpos := countP_pos_iff.mpr ⟨a, ha.1, ha.2⟩
    rw [countP_eq_length_filter] at hpos ⊢
    rw [length_singleton] at hle
    omega

/-- One session of the destructor. -/
def destroySession (s : Manager) (i : ℕ) : Manager := if s.cloned i then s else s.m_deleteIndex i

theorem destroySession_other (i k : ℕ) (hk : k ≠ i) (f : Field) :
    (destroySession s i).ptr k f = s.ptr k f ∧ (destroySession s i).cloned k = s.cloned k := by
  unfold destroySession
  split
  · exact ⟨rfl, rfl⟩
  · have he := emptied_m_deleteIndex i s
    refine ⟨?_, he.cloned k⟩
    rw [he.ptr, if_neg fun hboth => hk hboth.1]

/-- A session that has an object, and is no clone. -/
def owns (s : Manager) (f : Field) (n : ℕ) (i : ℕ) : Bool :=
  s.cloned i = false ∧ s.ptr i f = some n

theorem count_destroySession (i : ℕ) (f : Field) (n : ℕ) :
    (destroySession s i).deleted.count (.resource f n) =
      s.deleted.count (.resource f n) + if owns s f n i then 1 else 0 := by
  unfold destroySession owns
  cases hc : s.cloned i with
  | true => simp
  | false =>
    rw [if_neg Bool.false_ne_true, (emptied_m_deleteIndex i s).deleted]
    simp [mem_fields]

/-- **What the destructor deletes**: an object as often as a session that is no clone has
it. -/
theorem count_destroy (is : List ℕ) (hnodup : is.Nodup) (f : Field) (n : ℕ) :
    (is.foldl destroySession s).deleted.count (.resource f n) =
      s.deleted.count (.resource f n) + is.countP (owns s f n) := by
  induction is generalizing s with
  | nil => rfl
  | cons i is ih =>
    rw [nodup_cons] at hnodup
    rw [foldl_cons, ih hnodup.2, count_destroySession, countP_cons]
    have hsame : is.countP (owns (destroySession s i) f n) = is.countP (owns s f n) := by
      refine countP_congr fun k hk => ?_
      have hki : k ≠ i := fun heq => hnodup.1 (heq ▸ hk)
      obtain ⟨hptr, hcloned⟩ := destroySession_other (s := s) i k hki f
      simp only [owns, hptr, hcloned]
    rw [hsame]
    omega

theorem count_destroy_converter (is : List ℕ) (n : ℕ) :
    (is.foldl destroySession s).deleted.count (.metadataConverter n) =
      s.deleted.count (.metadataConverter n) := by
  induction is generalizing s with
  | nil => rfl
  | cons i is ih =>
    rw [foldl_cons, ih]
    unfold destroySession
    split
    · rfl
    · exact (emptied_m_deleteIndex i s).converters n

theorem count_deleteConverter (s : Manager) (n : ℕ) :
    s.deleteConverter.deleted.count (.metadataConverter n) =
      s.deleted.count (.metadataConverter n) +
        if s.m_metadataConverter = some n then 1 else 0 := by
  unfold deleteConverter
  cases s.m_metadataConverter with
  | none => simp
  | some m =>
    simp only [count_append, count_singleton, Option.some.injEq, beq_iff_eq,
      Object.metadataConverter.injEq]

theorem cloned_deleteConverter (s : Manager) (i : ℕ) : s.deleteConverter.cloned i = s.cloned i := by
  unfold deleteConverter
  split <;> rfl

/-- **Everything that is left is in its place**: an object that was recorded and is still
there belongs to one session that is no clone, and a metadata converter is that of the
manager. -/
def Placed (s : Manager) : Prop :=
  s.aborted = false →
    (∀ f n, .resource f n ∈ s.recorded → .resource f n ∉ s.deleted →
      ∃! i, i < RESOURCE_MAX ∧ s.cloned i = false ∧ s.ptr i f = some n) ∧
    ∀ n, .metadataConverter n ∈ s.recorded → .metadataConverter n ∉ s.deleted →
      s.m_metadataConverter = some n

/-- What the destructor makes of an object of a session. -/
theorem destroyed_resource_iff (h : Held s) {f : Field} {n : ℕ} (hrec : .resource f n ∈ s.recorded) :
    s.m_delete.deleted.count (.resource f n) = 1 ↔
      (.resource f n ∉ s.deleted →
        ∃! i, i < RESOURCE_MAX ∧ s.cloned i = false ∧ s.ptr i f = some n) := by
  have hsame := sameAt_deleteConverter f s
  have howns : owns s.deleteConverter f n = owns s f n := by
    funext i
    simp only [owns, hsame.ptr, cloned_deleteConverter]
  have hcount : s.m_delete.deleted.count (.resource f n) =
      s.deleted.count (.resource f n) + (List.range RESOURCE_MAX).countP (owns s f n) := by
    rw [← hsame.deleted, ← howns]
    exact count_destroy _ nodup_range f n
  have hunique : (List.range RESOURCE_MAX).countP (owns s f n) = 1 ↔
      ∃! i, i < RESOURCE_MAX ∧ s.cloned i = false ∧ s.ptr i f = some n := by
    rw [countP_eq_one_iff nodup_range]
    simp only [mem_range, owns, decide_eq_true_eq]
  rw [hcount, ← hunique]
  by_cases hdel : .resource f n ∈ s.deleted
  · -- No session has what was deleted.
    have hone : s.deleted.count (.resource f n) = 1 := by
      have hle := (h.fields f).once n hrec
      have hpos := count_pos_iff.mpr hdel
      omega
    have hzero : (List.range RESOURCE_MAX).countP (owns s f n) = 0 := by
      rw [countP_eq_zero]
      intro i _ hi
      simp only [owns, decide_eq_true_eq] at hi
      exact (h.fields f).live i n hi.2 hdel
    rw [hone, hzero]
    exact iff_of_true rfl fun hn => absurd hdel hn
  · rw [count_eq_zero_of_not_mem hdel, Nat.zero_add]
    exact ⟨fun hone _ => hone, fun hone => hone hdel⟩

/-- And of a metadata converter. -/
theorem destroyed_converter_iff (h : Numbered s) (n : ℕ) :
    s.m_delete.deleted.count (.metadataConverter n) = 1 ↔
      (.metadataConverter n ∉ s.deleted → s.m_metadataConverter = some n) := by
  have hcount : s.m_delete.deleted.count (.metadataConverter n) =
      s.deleted.count (.metadataConverter n) +
        if s.m_metadataConverter = some n then 1 else 0 := by
    rw [← count_deleteConverter]
    exact count_destroy_converter _ n
  rw [hcount]
  by_cases hdel : .metadataConverter n ∈ s.deleted
  · have hone : s.deleted.count (.metadataConverter n) = 1 := by
      have hle := h.converterOnce n
      have hpos := count_pos_iff.mpr hdel
      omega
    have hconv : s.m_metadataConverter ≠ some n := fun hn => (h.converter n hn).2 hdel
    rw [hone, if_neg hconv]
    exact iff_of_true rfl fun hn => absurd hdel hn
  · rw [count_eq_zero_of_not_mem hdel, Nat.zero_add]
    by_cases hconv : s.m_metadataConverter = some n
    · rw [if_pos hconv]
      exact iff_of_true rfl fun _ => hconv
    · rw [if_neg hconv]
      exact iff_of_false (by omega) fun hall => hconv (hall hdel)

theorem deletedOnce_iff (h : Held s) : DeletedOnce s ↔ Placed s := by
  constructor
  · intro honce hab
    refine ⟨fun f n hrec => ?_, fun n hrec => ?_⟩
    · exact (destroyed_resource_iff h hrec).mp (honce hab _ hrec)
    · exact (destroyed_converter_iff h.numbered n).mp (honce hab _ hrec)
  · intro hplaced hab o hrec
    cases o with
    | resource f n => exact (destroyed_resource_iff h hrec).mpr ((hplaced hab).1 f n hrec)
    | metadataConverter n =>
      exact (destroyed_converter_iff h.numbered n).mpr ((hplaced hab).2 n hrec)

/-! ## Every history -/

/-- **The resources of a manager are owned once**: every call of its history does what it
should, and after the destructor nothing is left over. -/
def OwnedOnce (m_cameraId : Fin CAMERA_ID_MAX) (history : List Call) : Prop :=
  Run.Throughout next (fun s c => Lawful s (next s c)) (Manager.initial m_cameraId) history ∧
    DeletedOnce (history.foldl next (Manager.initial m_cameraId))

/-- **The resources are owned once exactly when** every call meets its condition in the
manager that the calls before it left, and in the end everything is in its place. -/
theorem ownedOnce_iff (m_cameraId : Fin CAMERA_ID_MAX) (history : List Call) :
    OwnedOnce m_cameraId history ↔
      Run.Throughout next (fun s c => s.aborted = false → Meets s c)
          (Manager.initial m_cameraId) history ∧
        Placed (history.foldl next (Manager.initial m_cameraId)) := by
  have hinit := held_initial m_cameraId
  have hrun : Run.Throughout next (fun s c => Lawful s (next s c))
      (Manager.initial m_cameraId) history ↔
        Run.Throughout next (fun s c => s.aborted = false → Meets s c)
          (Manager.initial m_cameraId) history :=
    Run.Throughout.iff_of_invariant (fun _ c hs hl => hs.next c hl)
      (fun _ c hs => lawful_next_iff c hs) hinit
  rw [← hrun]
  refine and_congr_right fun hl => deletedOnce_iff ?_
  exact (Run.Always.of_invariant (P := Held) (fun _ c hs hl => hs.next c hl) hinit hl).last

/-- **The sessions come round again**: the fifth opening of a camera takes the first session
for its own, whose objects are still there. -/
theorem not_ownedOnce :
    ¬ ∀ (m_cameraId : Fin CAMERA_ID_MAX) (history : List Call),
      OwnedOnce m_cameraId history := by
  intro h
  have hrun := (h ⟨0, by decide⟩ (List.replicate 5 (.initResources ⟨.normal, []⟩))).1
  have hfifth := hrun.2.2.2.2.1.fields .configuration
  have hkept := hfifth.kept 1 0 (by decide +kernel) (by decide +kernel) (by decide +kernel)
  exact absurd hkept (by decide +kernel)

end ExynosVendor.Camera.ResourceManager
