import ExynosVendor.Camera.StreamManager
import ExynosVendor.Common.Run

/-!
# What the map of the streams promises

Every entry of the map should be a live object that goes by its key and that its stream
points back to, every object should be deleted once, and the count of the input streams
should only go down with one of them. A stream that could not be counted should leave no
trace.
-/

namespace ExynosVendor.Camera.StreamManager

open Manager
open List

variable {s : Manager} {outcome : YuvOutcome} {id : ℤ} {stream : ℕ}

/-! ## The law -/

/-- **The map is in order**: the keys are different, every entry goes by its key and is
what its stream points to, and were the manager destroyed now, every object would have
been deleted once. -/
structure Registered (s : Manager) : Prop where
  keys : s.keys.Nodup
  reported : ∀ e ∈ s.m_streamInfoMap, (s.object e.2).getID = some e.1 ∧ e.1 ≤ INT_MAX
  priv : ∀ e ∈ s.m_streamInfoMap, (s.streamOf e.2).priv = some e.2
  deletedOnce : s.m_deinit.deleted.Perm (List.range s.objects.length)

namespace Manager

/-- How many objects of input streams were deleted. -/
def deletedInputs (s : Manager) : ℕ := s.deleted.countP s.isInput

/-- How many objects of input streams were built. -/
def createdInputs (s : Manager) : ℕ := (List.range s.objects.length).countP s.isInput

end Manager

/-- **What holds of the manager after every call**: its map is in order and holds live
objects, and the input count is what was counted less the input streams that were deleted,
so it is not negative when every input stream was counted. -/
structure Sound (s : Manager) : Prop where
  registered : Registered s
  live : ∀ e ∈ s.m_streamInfoMap, e.2 < s.objects.length ∧ e.2 ∉ s.deleted
  inputs : s.m_inputStreamCount = s.counted - s.deletedInputs
  nonneg : s.createdInputs ≤ s.counted → 0 ≤ s.m_inputStreamCount

/-- **What a call should do.** A `createStream` whose stream could not be counted reports an
error, has deleted its own object only, and has left the map and the counters alone. -/
structure Lawful (outcome : YuvOutcome) (s : Manager) (c : Call) (r : Bool × Manager) :
    Prop where
  failed : ∀ id stream, c = .createStream id stream → outcome.increase = false →
    r.1 = false ∧ r.2.deleted = s.deleted ++ [s.objects.length] ∧
      r.2.m_streamInfoMap = s.m_streamInfoMap ∧
      r.2.m_yuvStreamCount = s.m_yuvStreamCount ∧
      r.2.m_yuvStallStreamCount = s.m_yuvStallStreamCount ∧
      r.2.m_inputStreamCount = s.m_inputStreamCount
  sound : Sound r.2

/-- The objects of the map are live. -/
theorem Registered.live (h : Registered s) {e : ℤ × ℕ} (he : e ∈ s.m_streamInfoMap) :
    e.2 < s.objects.length ∧ e.2 ∉ s.deleted := by
  have hmem : e.2 ∈ s.m_streamInfoMap.map Prod.snd := mem_map_of_mem he
  have hnodup := h.deletedOnce.nodup_iff.mpr nodup_range
  constructor
  · exact mem_range.mp (h.deletedOnce.subset (mem_append_right _ hmem))
  · intro hdel
    exact (nodup_append.mp hnodup).2.2 _ hdel _ hmem rfl

theorem Registered.deletedInputs_le (h : Registered s) : s.deletedInputs ≤ s.createdInputs := by
  have hcount := h.deletedOnce.countP_eq s.isInput
  have hsplit : s.m_deinit.deleted.countP s.isInput =
      s.deletedInputs + (s.m_streamInfoMap.map Prod.snd).countP s.isInput :=
    countP_append
  rw [hsplit] at hcount
  unfold createdInputs
  omega

theorem sound_iff :
    Sound s ↔ Registered s ∧ s.m_inputStreamCount = s.counted - s.deletedInputs := by
  constructor
  · intro h
    exact ⟨h.registered, h.inputs⟩
  · rintro ⟨hreg, hinputs⟩
    refine ⟨hreg, fun e he => hreg.live he, hinputs, fun hcounted => ?_⟩
    have hle := hreg.deletedInputs_le
    omega

theorem sound_initial (streams : ℕ → Camera3Stream) : Sound (Manager.initial streams) := by
  rw [sound_iff]
  refine ⟨⟨nodup_nil, ?_, ?_, List.Perm.refl _⟩, rfl⟩
  · intro e he
    exact absurd he not_mem_nil
  · intro e he
    exact absurd he not_mem_nil

/-! ## The YUV counters

No part of the law but the failed `createStream` looks at them. -/

theorem countYuv_eq (s : Manager) (id n : ℤ) :
    ∃ a b, s.countYuv id n = { s with m_yuvStreamCount := a, m_yuvStallStreamCount := b } := by
  simp only [countYuv]
  split
  · exact ⟨_, _, rfl⟩
  · split
    · exact ⟨_, _, rfl⟩
    · exact ⟨_, _, rfl⟩

theorem m_decreaseYuvStreamCount_eq (s : Manager) (outcome : YuvOutcome) (id : ℤ) :
    ∃ a b, (s.m_decreaseYuvStreamCount outcome id).2 =
      { s with m_yuvStreamCount := a, m_yuvStallStreamCount := b } := by
  unfold m_decreaseYuvStreamCount
  split
  · exact countYuv_eq s id (-1)
  · exact ⟨_, _, rfl⟩

theorem registered_yuv (a b : ℤ) :
    Registered { s with m_yuvStreamCount := a, m_yuvStallStreamCount := b } ↔ Registered s :=
  ⟨fun ⟨hk, hr, hp, hd⟩ => ⟨hk, hr, hp, hd⟩, fun ⟨hk, hr, hp, hd⟩ => ⟨hk, hr, hp, hd⟩⟩

/-! ## The free id -/

theorem redefine_mem {keys : List ℤ} {fuel : ℕ} (h : redefine keys fuel id ∈ keys) :
    ∀ k ≤ fuel, id + k * HAL_STREAM_ID_MAX ∈ keys := by
  induction fuel generalizing id with
  | zero =>
    intro k hk
    obtain rfl : k = 0 := by omega
    simpa [redefine] using h
  | succ fuel ih =>
    unfold redefine at h
    split at h
    · rename_i hid
      intro k hk
      cases k with
      | zero => simpa using hid
      | succ k =>
        have hnext := ih h k (by omega)
        have hstep : id + (k + 1 : ℕ) * HAL_STREAM_ID_MAX =
            id + HAL_STREAM_ID_MAX + k * HAL_STREAM_ID_MAX := by
          simp only [HAL_STREAM_ID_MAX]
          omega
        rwa [hstep]
    · rename_i hid
      exact absurd h hid

/-- **The id that is found is free**: one step more than there are keys cannot hit a key
each time. -/
theorem freeId_notMem (s : Manager) (id : ℤ) : s.freeId id ∉ s.keys := by
  intro h
  have hall := redefine_mem h
  have hinj : Function.Injective fun k : ℕ => id + k * HAL_STREAM_ID_MAX := by
    intro a b hab
    simp only [HAL_STREAM_ID_MAX] at hab
    omega
  have hnodup := nodup_range (n := s.keys.length + 2) |>.map hinj
  have hsub : (List.range (s.keys.length + 2)).map (fun k : ℕ => id + k * HAL_STREAM_ID_MAX) ⊆
      s.keys := by
    intro x hx
    obtain ⟨k, hk, rfl⟩ := mem_map.mp hx
    have hlt := mem_range.mp hk
    exact hall k (by omega)
  have hlen := (subperm_of_subset hnodup hsub).length_le
  simp only [length_map, length_range] at hlen
  omega

/-! ## Creating -/

namespace Manager

/-- The manager with a stream more, which nobody has counted yet. -/
def withStream (s : Manager) (id : ℤ) (stream : ℕ) : Manager :=
  { s with
    m_streamInfoMap := s.m_streamInfoMap ++ [(s.freeId id, s.objects.length)]
    streams := Function.update s.streams stream
      { s.streams stream with priv := some s.objects.length }
    objects := s.objects ++ [ExynosCameraStream.setID ⟨id, stream⟩ (s.freeId id)] }

end Manager

theorem m_insert_eq (s : Manager) (outcome : YuvOutcome) (id : ℤ) (stream : ℕ) :
    (Manager.setPriv { s with objects := s.objects ++ [⟨id, stream⟩] } stream
        (some s.objects.length)).m_insert outcome id s.objects.length =
      (s.withStream id stream).m_increaseYuvStreamCount outcome (s.freeId id) := by
  simp [m_insert, setPriv, withStream, Manager.object, freeId, Manager.keys]

theorem createStream_of_counted (id : ℤ) (stream : ℕ) (h : outcome.increase) :
    s.createStream outcome id stream =
      (true, (s.withStream id stream).countYuv (s.freeId id) 1) := by
  simp only [createStream, m_insert_eq, m_increaseYuvStreamCount, h, if_true]

theorem createStream_of_failed (id : ℤ) (stream : ℕ) (h : outcome.increase = false) :
    s.createStream outcome id stream =
      if ((s.withStream id stream).m_delete outcome id).1 then
        (s.withStream id stream).m_delete outcome id
      else (false, ((s.withStream id stream).m_delete outcome id).2.m_deleteItem
        s.objects.length) := by
  simp only [createStream, m_insert_eq, m_increaseYuvStreamCount, h, Bool.false_eq_true, if_false]

theorem object_withStream_lt {o : ℕ} (h : o < s.objects.length) :
    (s.withStream id stream).object o = s.object o := by
  simp [Manager.object, withStream, getElem?_append_left h]

theorem object_withStream_self :
    (s.withStream id stream).object s.objects.length =
      ExynosCameraStream.setID ⟨id, stream⟩ (s.freeId id) := by
  simp [Manager.object, withStream]

theorem streams_withStream (x : ℕ) :
    (s.withStream id stream).streams x =
      if x = stream then { s.streams stream with priv := some s.objects.length }
      else s.streams x := by
  simp [withStream, Function.update_apply]

theorem setID_getID_iff (id key : ℤ) (stream : ℕ) :
    (ExynosCameraStream.setID ⟨id, stream⟩ key).getID = some key ↔ 0 ≤ key := by
  unfold ExynosCameraStream.setID ExynosCameraStream.getID
  by_cases hkey : key < 0
  · simp only [hkey, if_true]
    by_cases hid : id < 0
    · simp only [hid, if_true, reduceCtorEq, false_iff]
      omega
    · simp only [hid, if_false, Option.some.injEq]
      omega
  · simp only [hkey, if_false, true_iff]
    omega

theorem setID_m_stream (id key : ℤ) (stream : ℕ) :
    (ExynosCameraStream.setID ⟨id, stream⟩ key).m_stream = stream := by
  unfold ExynosCameraStream.setID
  split <;> rfl

theorem isInput_withStream {o : ℕ} (h : o < s.objects.length) :
    (s.withStream id stream).isInput o = s.isInput o := by
  simp only [isInput, streamOf, object_withStream_lt h, streams_withStream]
  split
  · rename_i heq
    simp [heq]
  · rfl

theorem deletedInputs_withStream (id : ℤ) (stream : ℕ) (h : Registered s) :
    (s.withStream id stream).deletedInputs = s.deletedInputs := by
  refine countP_congr fun o ho => ?_
  have hlt : o < s.objects.length :=
    mem_range.mp (h.deletedOnce.subset (mem_append_left _ ho))
  rw [isInput_withStream hlt]

/-- **A stream more leaves the map in order** when the id it gets is one, and no entry of
the map is for the same stream. -/
theorem registered_withStream_iff (h : Registered s) :
    Registered (s.withStream id stream) ↔
      0 ≤ s.freeId id ∧ s.freeId id ≤ INT_MAX ∧
        ∀ e ∈ s.m_streamInfoMap, (s.object e.2).m_stream ≠ stream := by
  have hnew : (s.freeId id, s.objects.length) ∈ (s.withStream id stream).m_streamInfoMap :=
    mem_append_right _ (mem_singleton.mpr rfl)
  constructor
  · intro h'
    have hreported := h'.reported _ hnew
    rw [object_withStream_self, setID_getID_iff] at hreported
    refine ⟨hreported.1, hreported.2, fun e he hstream => ?_⟩
    -- The stream would point to the new object.
    have hlt := (h.live he).1
    have hpriv := h'.priv e (mem_append_left _ he)
    rw [streamOf, object_withStream_lt hlt, streams_withStream, if_pos hstream] at hpriv
    have : s.objects.length = e.2 := Option.some.inj hpriv
    omega
  · rintro ⟨hpos, hmax, hother⟩
    constructor
    · have hkeys : (s.withStream id stream).keys = s.keys ++ [s.freeId id] := by
        simp [Manager.keys, withStream]
      rw [hkeys, nodup_append]
      refine ⟨h.keys, nodup_singleton _, ?_⟩
      rintro k hk _ hfree rfl
      rw [mem_singleton] at hfree
      exact freeId_notMem s id (hfree ▸ hk)
    · intro e he
      rcases mem_append.mp he with hold | hnew
      · rw [object_withStream_lt (h.live hold).1]
        exact h.reported e hold
      · obtain rfl := mem_singleton.mp hnew
        rw [object_withStream_self, setID_getID_iff]
        exact ⟨hpos, hmax⟩
    · intro e he
      rcases mem_append.mp he with hold | hnew
      · rw [streamOf, object_withStream_lt (h.live hold).1, streams_withStream,
          if_neg (hother e hold)]
        exact h.priv e hold
      · obtain rfl := mem_singleton.mp hnew
        rw [streamOf, object_withStream_self, setID_m_stream, streams_withStream, if_pos rfl]
    · have hdeleted : (s.withStream id stream).m_deinit.deleted =
          s.m_deinit.deleted ++ [s.objects.length] := by
        simp [m_deinit, withStream]
      rw [hdeleted]
      simp only [withStream, length_append, length_singleton, range_succ]
      exact h.deletedOnce.append_right _

/-! ## Deleting -/

namespace Manager

/-- The manager without an entry of the map and its object. -/
def without (s : Manager) (id : ℤ) (item : ℕ) : Manager :=
  Manager.m_deleteItem { s with m_streamInfoMap := s.m_streamInfoMap.filter fun e => e.1 ≠ id }
    item

end Manager

theorem m_delete_of_notMem (outcome : YuvOutcome) (h : s.m_streamInfoMap.lookup id = none) :
    ∃ a b, (s.m_delete outcome id).2 =
      { s with m_yuvStreamCount := a, m_yuvStallStreamCount := b } := by
  simp only [m_delete, h]
  exact m_decreaseYuvStreamCount_eq s outcome id

variable {item : ℕ}

theorem m_delete_of_mem (outcome : YuvOutcome) (h : s.m_streamInfoMap.lookup id = some item) :
    ∃ a b, (s.m_delete outcome id).2 =
      { s.without id item with m_yuvStreamCount := a, m_yuvStallStreamCount := b } := by
  simp only [m_delete, h]
  split
  · exact m_decreaseYuvStreamCount_eq (s.without id item) outcome id
  · exact ⟨_, _, rfl⟩

/-- An entry that is found is the only one of its key. -/
theorem perm_of_lookup {m : List (ℤ × ℕ)} (hnodup : (m.map Prod.fst).Nodup)
    (hfind : m.lookup id = some item) :
    ((id, item) :: m.filter fun e => e.1 ≠ id).Perm m := by
  induction m with
  | nil => exact absurd hfind (by simp)
  | cons e m ih =>
    obtain ⟨key, o⟩ := e
    rw [map_cons, nodup_cons] at hnodup
    by_cases hkey : id = key
    · subst hkey
      rw [lookup_cons_self, Option.some.injEq] at hfind
      subst hfind
      have hrest : (m.filter fun e => e.1 ≠ id) = m := by
        rw [filter_eq_self]
        intro e he
        have hne : e.1 ≠ id := by
          rintro rfl
          have hmem : e.1 ∈ m.map Prod.fst := mem_map_of_mem he
          exact hnodup.1 hmem
        simpa using hne
      simp only [ne_eq, decide_not] at hrest
      simp [hrest]
    · rw [lookup_cons, beq_false_of_ne hkey] at hfind
      have hrest := ih hnodup.2 hfind
      rw [filter_cons_of_pos (by simpa using Ne.symm hkey)]
      exact (List.Perm.swap _ _ _).trans (hrest.cons _)

theorem isInput_without (item o : ℕ) : (s.without id item).isInput o = s.isInput o := by
  simp only [isInput, streamOf, without, m_deleteItem, setPriv, Manager.object,
    Function.update_apply]
  split
  · rename_i heq
    simp only [heq]
  · rfl

theorem deletedInputs_without (s : Manager) (id : ℤ) (item : ℕ) :
    (s.without id item).deletedInputs = s.deletedInputs + if s.isInput item then 1 else 0 := by
  have hdeleted : (s.without id item).deleted = s.deleted ++ [item] := rfl
  have hsame : (s.without id item).isInput = s.isInput := funext (isInput_without item)
  rw [deletedInputs, hdeleted, hsame, countP_append, countP_singleton]
  rfl

theorem inputCount_without (s : Manager) (id : ℤ) (item : ℕ) :
    (s.without id item).m_inputStreamCount =
      s.m_inputStreamCount - if s.isInput item then 1 else 0 := by
  have hcount : (s.without id item).m_inputStreamCount =
      if s.isInput item then s.m_inputStreamCount - 1 else s.m_inputStreamCount := rfl
  rw [hcount]
  split <;> omega

/-- **Deleting an entry of the map leaves it in order.** -/
theorem registered_without (h : Registered s) (hfind : s.m_streamInfoMap.lookup id = some item) :
    Registered (s.without id item) := by
  have hperm := perm_of_lookup h.keys hfind
  have hitem : (id, item) ∈ s.m_streamInfoMap := hperm.subset mem_cons_self
  have hrest {e : ℤ × ℕ} (he : e ∈ (s.without id item).m_streamInfoMap) :
      e ∈ s.m_streamInfoMap ∧ e.1 ≠ id := by
    have hmem := mem_filter.mp he
    exact ⟨hmem.1, by simpa using hmem.2⟩
  constructor
  · exact h.keys.sublist (filter_sublist.map Prod.fst)
  · intro e he
    exact h.reported e (hrest he).1
  · intro e he
    obtain ⟨hmem, hne⟩ := hrest he
    have hpriv := h.priv e hmem
    have hother : (s.object e.2).m_stream ≠ (s.object item).m_stream := by
      intro heq
      -- Two entries of one stream would be one object under one key.
      have hpriv' := h.priv _ hitem
      rw [streamOf, ← heq] at hpriv'
      have hsame : e.2 = item := Option.some.inj (hpriv.symm.trans hpriv')
      have hreported := (h.reported e hmem).1
      rw [hsame, (h.reported _ hitem).1, Option.some.injEq] at hreported
      exact hne hreported.symm
    have hstream : (s.without id item).streamOf e.2 = s.streamOf e.2 := by
      simp only [streamOf, without, m_deleteItem, setPriv, Manager.object, Function.update_apply]
      exact if_neg hother
    rw [hstream]
    exact hpriv
  · have hdeleted : (s.without id item).m_deinit.deleted =
        s.deleted ++ [item] ++
          (s.m_streamInfoMap.filter fun e => e.1 ≠ id).map Prod.snd := rfl
    rw [hdeleted, append_assoc]
    exact ((hperm.map Prod.snd).append_left s.deleted).trans h.deletedOnce

/-! ## Every call -/

/-- **When a call keeps the law.** A stream that is created can be counted, the first free
id is one, and no entry of the map is for it; and the id that is deleted is none of an
input stream. -/
def Meets (outcome : YuvOutcome) (s : Manager) : Call → Prop
  | .createStream id stream =>
      outcome.increase ∧ 0 ≤ s.freeId id ∧ s.freeId id ≤ INT_MAX ∧
        ∀ e ∈ s.m_streamInfoMap, (s.object e.2).m_stream ≠ stream
  | .increaseInputStreamCount _ => True
  | .deleteStream id => 0 ≤ id → id % HAL_STREAM_ID_MAX ≠ HAL_STREAM_ID_ZSL_INPUT

/-- The id that was asked for is in the map afterwards, if only as another's. -/
theorem exists_lookup_withStream (s : Manager) (id : ℤ) (stream : ℕ) :
    ∃ item, (s.withStream id stream).m_streamInfoMap.lookup id = some item := by
  rw [← Option.isSome_iff_exists, ← Option.ne_none_iff_isSome]
  intro hnone
  rw [List.lookup_eq_none_iff] at hnone
  by_cases hid : id ∈ s.keys
  · obtain ⟨e, he, hkey⟩ := mem_map.mp hid
    have := hnone e (mem_append_left _ he)
    simp [hkey] at this
  · have hfree : s.freeId id = id := by
      unfold freeId redefine
      exact if_neg hid
    have := hnone _ (mem_append_right _ (mem_singleton.mpr rfl))
    simp [hfree] at this

/-- **A stream that could not be counted is never cleaned up lawfully**: either the
clean-up is reported instead of the failure, or it has deleted an object of the map as well
as the new one. -/
theorem createStream_failed (id : ℤ) (stream : ℕ) (hfail : outcome.increase = false) :
    ¬ Lawful outcome s (.createStream id stream) (s.createStream outcome id stream) := by
  intro hlawful
  obtain ⟨herror, hdeleted, -⟩ := hlawful.failed id stream rfl hfail
  rw [createStream_of_failed id stream hfail] at herror hdeleted
  -- The id is in the map by now: what is deleted is its entry, whosever it is.
  obtain ⟨item, hfind⟩ := exists_lookup_withStream s id stream
  obtain ⟨a, b, heq⟩ := m_delete_of_mem outcome hfind
  split at herror
  · rename_i hdone
    rw [hdone] at herror
    exact Bool.noConfusion herror
  · rename_i hdone
    rw [if_neg hdone, heq] at hdeleted
    have hlen := congrArg List.length hdeleted
    simp [m_deleteItem, without, withStream, setPriv] at hlen

theorem createStream_lawful_iff (id : ℤ) (stream : ℕ) (h : Sound s) :
    Lawful outcome s (.createStream id stream) (s.createStream outcome id stream) ↔
      Meets outcome s (.createStream id stream) := by
  cases hup : outcome.increase with
  | false =>
    refine iff_of_false (createStream_failed id stream hup) ?_
    intro hmeets
    have hcounted := hmeets.1
    rw [hup] at hcounted
    exact Bool.noConfusion hcounted
  | true =>
    rw [createStream_of_counted id stream hup]
    obtain ⟨a, b, heq⟩ := countYuv_eq (s.withStream id stream) (s.freeId id) 1
    have hsound : Sound ((s.withStream id stream).countYuv (s.freeId id) 1) ↔
        Registered (s.withStream id stream) := by
      rw [heq, sound_iff, registered_yuv]
      refine and_iff_left ?_
      have hinputs := h.inputs
      rw [← deletedInputs_withStream id stream h.registered] at hinputs
      exact hinputs
    rw [Meets, hup, ← registered_withStream_iff h.registered, ← hsound]
    constructor
    · intro hlawful
      exact ⟨rfl, hlawful.sound⟩
    · rintro ⟨-, hs⟩
      refine ⟨fun _ _ _ hfail => ?_, hs⟩
      rw [hup] at hfail
      exact Bool.noConfusion hfail

/-- What `m_delete` of an id leaves, up to the YUV counters, is in order, and the input
count still agrees. -/
theorem sound_m_delete (outcome : YuvOutcome) (id : ℤ) (h : Sound s) :
    Sound (s.m_delete outcome id).2 := by
  rw [sound_iff]
  cases hfind : s.m_streamInfoMap.lookup id with
  | none =>
    obtain ⟨a, b, heq⟩ := m_delete_of_notMem outcome hfind
    rw [heq, registered_yuv]
    exact ⟨h.registered, h.inputs⟩
  | some item =>
    obtain ⟨a, b, heq⟩ := m_delete_of_mem outcome hfind
    rw [heq, registered_yuv]
    refine ⟨registered_without h.registered hfind, ?_⟩
    have hcount := inputCount_without s id item
    have hdeleted := deletedInputs_without s id item
    have hinputs := h.inputs
    have hcounted : (s.without id item).counted = s.counted := rfl
    change (s.without id item).m_inputStreamCount =
      (s.without id item).counted - (s.without id item).deletedInputs
    rw [hcount, hdeleted, hcounted, hinputs]
    split <;> omega

theorem deleteStream_lawful_iff (id : ℤ) (h : Sound s) :
    Lawful outcome s (.deleteStream id) (s.deleteStream outcome id) ↔
      Meets outcome s (.deleteStream id) := by
  have hs := sound_m_delete outcome id h
  have hlawful : Lawful outcome s (.deleteStream id) (s.deleteStream outcome id) ↔
      Sound ((s.m_delete outcome id).2.m_decreaseInputStreamCount id).2 :=
    ⟨Lawful.sound, fun hsound => ⟨fun _ _ hc => Call.noConfusion hc, hsound⟩⟩
  rw [hlawful, Meets]
  unfold m_decreaseInputStreamCount
  by_cases hneg : id < 0
  · rw [if_pos hneg]
    exact iff_of_true hs fun hpos => by omega
  · rw [if_neg hneg, Int.tmod_eq_emod_of_nonneg (by omega)]
    by_cases hzsl : id % HAL_STREAM_ID_MAX = HAL_STREAM_ID_ZSL_INPUT
    · rw [if_pos hzsl]
      refine iff_of_false ?_ fun hmeets => hmeets (by omega) hzsl
      intro hsound
      -- One less for the id, and the object was counted already.
      have hinputs := hsound.inputs
      have hinputs' := hs.inputs
      change (s.m_delete outcome id).2.m_inputStreamCount - 1 =
        (s.m_delete outcome id).2.counted - (s.m_delete outcome id).2.deletedInputs at hinputs
      omega
    · rw [if_neg hzsl]
      exact iff_of_true hs fun _ => hzsl

theorem increaseInputStreamCount_lawful (inputStreamMaxNum : ℤ) (h : Sound s) :
    Lawful outcome s (.increaseInputStreamCount inputStreamMaxNum)
      (s.increaseInputStreamCount inputStreamMaxNum) := by
  refine ⟨fun _ _ hc => Call.noConfusion hc, ?_⟩
  rw [sound_iff] at h ⊢
  obtain ⟨⟨hkeys, hreported, hpriv, hdeleted⟩, hinputs⟩ := h
  refine ⟨⟨hkeys, hreported, hpriv, hdeleted⟩, ?_⟩
  have hsame : (s.increaseInputStreamCount inputStreamMaxNum).2.deletedInputs =
      s.deletedInputs := rfl
  rw [hsame]
  simp only [increaseInputStreamCount]
  omega

theorem lawful_call_iff (c : Call) (h : Sound s) :
    Lawful outcome s c (s.call outcome c) ↔ Meets outcome s c := by
  cases c with
  | createStream id stream => exact createStream_lawful_iff id stream h
  | increaseInputStreamCount inputStreamMaxNum =>
    exact iff_of_true (increaseInputStreamCount_lawful inputStreamMaxNum h) trivial
  | deleteStream id => exact deleteStream_lawful_iff id h

/-- One call after another, each with which helpers succeed. -/
def next (s : Manager) (step : YuvOutcome × Call) : Manager := (s.call step.1 step.2).2

/-- **The history of a manager is lawful**: every call of it does what it should, in the
manager that the calls before it left. -/
def LawfulHistory (streams : ℕ → Camera3Stream) (history : List (YuvOutcome × Call)) : Prop :=
  Run.Throughout next (fun s step => Lawful step.1 s step.2 (s.call step.1 step.2))
    (Manager.initial streams) history

/-- **A history is lawful exactly when every call of it meets its condition** in the
manager that the calls before it left. -/
theorem registry_lawful_iff (streams : ℕ → Camera3Stream)
    (history : List (YuvOutcome × Call)) :
    LawfulHistory streams history ↔
      Run.Throughout next (fun s step => Meets step.1 s step.2)
        (Manager.initial streams) history :=
  Run.Throughout.iff_of_invariant (fun _ _ _ hlawful => hlawful.sound)
    (fun _ step hs => lawful_call_iff step.2 hs) (sound_initial streams)

/-- **The wrong stream is cleaned up**: a second stream of an id gets another id, cannot be
counted, and the first is deleted for it, without an error. -/
theorem not_registry_lawful :
    ¬ ∀ (streams : ℕ → Camera3Stream) (history : List (YuvOutcome × Call)),
      LawfulHistory streams history := by
  intro h
  have hhistory := h (fun _ => ⟨.output, none, none⟩)
    [(⟨true, true⟩, .createStream HAL_STREAM_ID_PREVIEW 0),
      (⟨false, true⟩, .createStream HAL_STREAM_ID_PREVIEW 1)]
  have herror := (hhistory.2.1.failed HAL_STREAM_ID_PREVIEW 1 rfl rfl).1
  exact absurd herror (by decide)

end ExynosVendor.Camera.StreamManager
