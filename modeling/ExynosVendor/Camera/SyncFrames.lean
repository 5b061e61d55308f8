import ExynosVendor.Camera.PipeSync

/-!
# The frames of the sync pipe

A frame that `m_run` has popped is in the output queue or in one of the two
frame queues, once. The cleaning functions move frames from a queue to the
output; what they do is said once, and the rest of the pipe is made of it.
-/

namespace ExynosVendor.Camera

open List

/-- How often a frame is in a queue. -/
def tally (q : List PipeFrame) (i : ℕ) : ℕ := q.countP fun f => f.id = i

@[simp] theorem tally_nil (i : ℕ) : tally [] i = 0 := rfl

@[simp] theorem tally_append (q q' : List PipeFrame) (i : ℕ) :
    tally (q ++ q') i = tally q i + tally q' i := countP_append

theorem tally_cons (f : PipeFrame) (q : List PipeFrame) (i : ℕ) :
    tally (f :: q) i = tally [f] i + tally q i := tally_append [f] q i

theorem tally_core {q q' : List PipeFrame} (h : q.map PipeFrame.core = q'.map PipeFrame.core)
    (i : ℕ) : tally q i = tally q' i := by
  have key : ∀ q : List PipeFrame,
      tally q i = (q.map PipeFrame.core).countP fun c => c.1 = i := by
    intro q
    rw [countP_map]
    rfl
  rw [key q, key q', h]

theorem tally_perm {q q' : List PipeFrame} (h : q.Perm q') (i : ℕ) : tally q i = tally q' i :=
  h.countP_eq _

@[simp] theorem m_setFrameState_core (pipeId : SyncPipeId) (f : PipeFrame) (state : FrameState) :
    (m_setFrameState pipeId f state).core = f.core := by
  unfold m_setFrameState
  split <;> rfl

/-- **A frame is marked as synchronised**: by its type, which cleaning changes where it saves the
frame, and with something in it, so its state and its source say, and an entity of the pipe. -/
def PipeFrame.Synchronised (f : PipeFrame) : Prop :=
  (f.frameType = .previewDualMaster ∨ f.frameType = .reprocessingDualMaster) ∧
    PipeSync.isInvalid f = false ∧ f.srcBufferError = false ∧ f.dstEntity = true

/-- A frame that is skipped is not, if it was not. -/
theorem synchronised_m_setFrameState {pipeId : SyncPipeId} {f : PipeFrame}
    (h : (m_setFrameState pipeId f .skipped).Synchronised) :
    pipeId = .bayerSync ∧ f.Synchronised := by
  unfold m_setFrameState at h
  split at h
  · next hbayer => exact ⟨hbayer, h⟩
  · exact absurd h.2.1 (by simp [PipeSync.isInvalid])

/-- **A push adds one frame to the output.** -/
theorem m_pushFrameToOutputQ_out (pipeId : SyncPipeId) (o : SyncOutput) (f : PipeFrame) :
    ∃ f' : PipeFrame, (m_pushFrameToOutputQ pipeId o f).outputFrameQ = o.outputFrameQ ++ [f'] ∧
      f'.core = f.core ∧ (f'.Synchronised → f.Synchronised) := by
  unfold m_pushFrameToOutputQ
  split
  · exact ⟨f, rfl, rfl, id⟩
  · exact ⟨f, rfl, rfl, id⟩
  all_goals
    split
    · exact ⟨f, rfl, rfl, id⟩
    · split
      · exact ⟨_, rfl, m_setFrameState_core pipeId f .skipped,
          fun h => (synchronised_m_setFrameState h).2⟩
      · exact ⟨f, rfl, rfl, id⟩

/-- **The cleaning loop**: of the first frames of a queue, those that are to be
cleaned go out in their order, and the others go behind the rest. -/
theorem cleanLoop_spec (pipeId : SyncPipeId) (flagClean : PipeFrame → Bool)
    {mark : PipeFrame → PipeFrame} (hmark : ∀ f, (mark f).core = f.core)
    (q rest : List PipeFrame) (o : SyncOutput) :
    ∃ out : List PipeFrame,
      (cleanLoop pipeId flagClean mark q.length (o, q ++ rest)).1.outputFrameQ =
          o.outputFrameQ ++ out ∧
        out.map PipeFrame.core = (q.filter flagClean).map PipeFrame.core ∧
        (∀ f ∈ out, f.Synchronised → ∃ g, (mark g).Synchronised) ∧
        (cleanLoop pipeId flagClean mark q.length (o, q ++ rest)).2 =
          rest ++ q.filter (fun f => !flagClean f) := by
  induction q generalizing rest o with
  | nil =>
    exact ⟨[], (append_nil _).symm, rfl, fun f hf => absurd hf not_mem_nil,
      (append_nil _).symm⟩
  | cons f q ih =>
    rw [length_cons, cons_append, cleanLoop]
    by_cases hclean : flagClean f = true
    · obtain ⟨f', hf', hcore, hmarked⟩ := m_pushFrameToOutputQ_out pipeId o (mark f)
      obtain ⟨out, hout, hmap, hmarks, hrest⟩ := ih rest (m_pushFrameToOutputQ pipeId o (mark f))
      rw [if_pos hclean, filter_cons_of_pos hclean, filter_cons_of_neg (by simp [hclean])]
      refine ⟨f' :: out, ?_, ?_, ?_, hrest⟩
      · rw [hout, hf', append_assoc]
        rfl
      · rw [map_cons, map_cons, hmap, hcore, hmark]
      · exact forall_mem_cons.mpr ⟨fun h => ⟨f, hmarked h⟩, hmarks⟩
    · obtain ⟨out, hout, hmap, hmarks, hrest⟩ := ih (rest ++ [f]) o
      rw [if_neg hclean, filter_cons_of_neg hclean,
        filter_cons_of_pos (by simp [hclean]), append_assoc]
      refine ⟨out, hout, hmap, hmarks, ?_⟩
      rw [hrest, append_assoc]
      rfl

namespace PipeSync

variable {s s' : PipeSync}

@[simp] theorem setFrameQ_same (s : PipeSync) (side : SyncSide) (q : List PipeFrame) :
    (s.setFrameQ side q).frameQ side = q := by
  cases side <;> rfl

@[simp] theorem setFrameQ_other (s : PipeSync) (side : SyncSide) (q : List PipeFrame) :
    (s.setFrameQ side q).frameQ side.other = s.frameQ side.other := by
  cases side <;> rfl

@[simp] theorem setFrameQ_output (s : PipeSync) (side : SyncSide) (q : List PipeFrame) :
    (s.setFrameQ side q).output = s.output := by
  cases side <;> rfl

/-- What a step inside `m_run` leaves alone: all but the output and the two
frame queues. -/
def SameBeside (s s' : PipeSync) : Prop :=
  s' = { s with
    output := s'.output, masterFrameQ := s'.masterFrameQ, slaveFrameQ := s'.slaveFrameQ }

theorem SameBeside.setFrameQ (s : PipeSync) (side : SyncSide) (q : List PipeFrame) :
    SameBeside s (s.setFrameQ side q) := by
  cases side <;> rfl

/-- The pipe marks the frames that it cleans: that of the Bayer frames does so when it makes pairs,
as it is set up. -/
def Marking (s : PipeSync) : Prop := s.pipeId = .bayerSync → s.makeFrameType = .pair

/-- **A cleaning**: some frames of a queue go out, in their order and none of them as
synchronised, and the others stay, in theirs. -/
structure Cleans (s s' : PipeSync) (side : SyncSide) (gone kept : List PipeFrame) : Prop where
  gone_sublist : gone.Sublist (s.frameQ side)
  kept_sublist : kept.Sublist (s.frameQ side)
  perm : (s.frameQ side).Perm (gone ++ kept)
  stays : s'.frameQ side = kept
  other : s'.frameQ side.other = s.frameQ side.other
  out : ∃ out : List PipeFrame, s'.output.outputFrameQ = s.output.outputFrameQ ++ out ∧
    out.map PipeFrame.core = gone.map PipeFrame.core ∧
    (s.Marking → ∀ f ∈ out, ¬ f.Synchronised)
  same : SameBeside s s'

theorem Cleans.nothing (s : PipeSync) (side : SyncSide) :
    Cleans s s side [] (s.frameQ side) where
  gone_sublist := nil_sublist _
  kept_sublist := List.Sublist.refl _
  perm := List.Perm.refl _
  stays := rfl
  other := rfl
  out := ⟨[], (append_nil _).symm, rfl, fun _ _ hf => absurd hf not_mem_nil⟩
  same := rfl

variable {mark : PipeFrame → PipeFrame}

/-- A pass over the whole queue. -/
theorem cleanPass_all (s : PipeSync) (side : SyncSide) (flagClean : PipeFrame → Bool)
    (hmark : ∀ f, (mark f).core = f.core) (hmarks : s.Marking → ∀ f, ¬ (mark f).Synchronised) :
    Cleans s (s.cleanPass side flagClean mark (s.frameQ side).length) side
      ((s.frameQ side).filter flagClean) ((s.frameQ side).filter fun f => !flagClean f) := by
  obtain ⟨out, hout, hmap, hnone, hrest⟩ :=
    cleanLoop_spec s.pipeId flagClean hmark (s.frameQ side) [] s.output
  rw [append_nil] at hout hrest
  refine ⟨filter_sublist, filter_sublist, ?_, ?_, ?_,
    ⟨out, ?_, hmap, fun hs f hf h => (hnone f hf h).elim (hmarks hs)⟩, ?_⟩
  · exact (filter_append_perm flagClean _).symm
  · exact (setFrameQ_same _ _ _).trans hrest
  · cases side <;> rfl
  · exact (congrArg SyncOutput.outputFrameQ (setFrameQ_output _ _ _)).trans hout
  · cases side <;> rfl

/-- A pass over the first frames of the queue, which all go out. -/
theorem cleanPass_first (s : PipeSync) (side : SyncSide) (hmark : ∀ f, (mark f).core = f.core)
    (hmarks : s.Marking → ∀ f, ¬ (mark f).Synchronised) {n : ℕ} (hn : n ≤ (s.frameQ side).length) :
    Cleans s (s.cleanPass side (fun _ => true) mark n) side
      ((s.frameQ side).take n) ((s.frameQ side).drop n) := by
  obtain ⟨out, hout, hmap, hnone, hrest⟩ :=
    cleanLoop_spec s.pipeId (fun _ => true) hmark ((s.frameQ side).take n)
      ((s.frameQ side).drop n) s.output
  rw [take_append_drop, length_take, Nat.min_eq_left hn] at hout hrest
  rw [filter_eq_self.mpr fun _ _ => rfl] at hmap
  refine ⟨take_sublist _ _, drop_sublist _ _, ?_, ?_, ?_,
    ⟨out, ?_, hmap, fun hs f hf h => (hnone f hf h).elim (hmarks hs)⟩, ?_⟩
  · rw [take_append_drop]
  · refine (setFrameQ_same _ _ _).trans (hrest.trans ?_)
    rw [filter_eq_nil_iff.mpr (by simp), append_nil]
  · cases side <;> rfl
  · exact (congrArg SyncOutput.outputFrameQ (setFrameQ_output _ _ _)).trans hout
  · cases side <;> rfl

@[simp] theorem markCleaned_core (s : PipeSync) (f : PipeFrame) :
    (s.markCleaned f).core = f.core := by
  unfold markCleaned
  split
  · rfl
  · exact m_setFrameState_core _ _ _

@[simp] theorem saveFrame_core (f : PipeFrame) : (saveFrame f).core = f.core := by
  unfold saveFrame
  split <;> rfl

/-- **A frame that is cleaned is not marked as synchronised.** -/
theorem not_synchronised_markCleaned (h : s.Marking) (f : PipeFrame) :
    ¬ (s.markCleaned f).Synchronised := by
  intro hf
  unfold markCleaned at hf
  split at hf
  · exact Bool.noConfusion hf.2.2.1
  · next hone => exact absurd (hone.symm.trans (h (synchronised_m_setFrameState hf).1)) (by decide)

theorem not_synchronised_saveFrame (f : PipeFrame) : ¬ (saveFrame f).Synchronised := by
  intro hf
  have htype := hf.1
  unfold saveFrame at htype
  split at htype <;> simp_all

/-- **What `m_cleanFrameBySyncType` does.** -/
theorem m_cleanFrameBySyncType_cleans (s : PipeSync) (side : SyncSide)
    (baseFrame : Option PipeFrame) (syncType : SyncType) (flagSaveFrame : Bool) :
    Cleans s (s.m_cleanFrameBySyncType side baseFrame syncType flagSaveFrame) side
      ((s.frameQ side).filter (olderThan baseFrame syncType))
      ((s.frameQ side).filter fun f => !olderThan baseFrame syncType f) := by
  refine cleanPass_all s side _ (fun f => ?_) fun hs f => ?_
  · split
    · exact saveFrame_core f
    · exact markCleaned_core s f
  · split
    · exact not_synchronised_saveFrame f
    · exact not_synchronised_markCleaned hs f

/-- **What `m_cleanFrameByMinCount` does.** -/
theorem m_cleanFrameByMinCount_cleans (s : PipeSync) (side : SyncSide) (minCount : ℤ) :
    ∃ n : ℕ, Cleans s (s.m_cleanFrameByMinCount side minCount) side
      ((s.frameQ side).take n) ((s.frameQ side).drop n) := by
  unfold m_cleanFrameByMinCount
  split
  · exact ⟨0, Cleans.nothing s side⟩
  · split
    · exact ⟨0, Cleans.nothing s side⟩
    · exact ⟨_, cleanPass_first s side (markCleaned_core s) not_synchronised_markCleaned
        (Nat.sub_le _ _)⟩

/-- With nothing to keep, the queue is empty. -/
theorem m_cleanFrameByMinCount_zero (s : PipeSync) (side : SyncSide) :
    Cleans s (s.m_cleanFrameByMinCount side 0) side (s.frameQ side) [] := by
  unfold m_cleanFrameByMinCount
  rw [if_neg (by omega)]
  split
  · rename_i hlength
    have hempty : s.frameQ side = [] := eq_nil_of_length_eq_zero (by omega)
    have hnothing := Cleans.nothing s side
    rw [hempty] at hnothing ⊢
    exact hnothing
  · have hfirst := cleanPass_first s side (markCleaned_core s) not_synchronised_markCleaned
      (n := (s.frameQ side).length - (0 : ℤ).toNat) (Nat.sub_le _ _)
    have hn : (s.frameQ side).length - (0 : ℤ).toNat = (s.frameQ side).length := rfl
    rw [hn, take_length, drop_length] at hfirst
    exact hfirst

/-- **What `m_cleanFrameByTimeStamp` does.** -/
theorem m_cleanFrameByTimeStamp_cleans (s : PipeSync) (side : SyncSide) (removeTimeStamp : ℕ) :
    Cleans s (s.m_cleanFrameByTimeStamp side removeTimeStamp) side
      ((s.frameQ side).filter fun f => f.ms ≤ removeTimeStamp)
      ((s.frameQ side).filter fun f => !decide (f.ms ≤ removeTimeStamp)) :=
  cleanPass_all s side _ (markCleaned_core s) not_synchronised_markCleaned

/-! ## Where a frame is -/

/-- How often a frame is in the output queue and in the two frame queues. -/
def whereabouts (s : PipeSync) (i : ℕ) : ℕ :=
  tally s.output.outputFrameQ i + tally s.masterFrameQ i + tally s.slaveFrameQ i

theorem whereabouts_side (s : PipeSync) (side : SyncSide) (i : ℕ) :
    s.whereabouts i =
      tally s.output.outputFrameQ i + tally (s.frameQ side) i + tally (s.frameQ side.other) i := by
  cases side
  · rfl
  · exact Nat.add_right_comm _ _ _

/-- **A cleaning keeps every frame.** -/
theorem Cleans.whereabouts {side : SyncSide} {gone kept : List PipeFrame}
    (h : Cleans s s' side gone kept) (i : ℕ) : s'.whereabouts i = s.whereabouts i := by
  obtain ⟨out, hout, hcore, -⟩ := h.out
  have hgone := tally_core hcore i
  have hperm := tally_perm h.perm i
  rw [whereabouts_side s' side, whereabouts_side s side, hout, h.stays, h.other]
  rw [tally_append] at hperm ⊢
  omega

theorem pushOutput_whereabouts (s : PipeSync) (f : PipeFrame) (i : ℕ) :
    (s.pushOutput f).whereabouts i = s.whereabouts i + tally [f] i := by
  obtain ⟨f', hf', hcore, -⟩ := m_pushFrameToOutputQ_out s.pipeId s.output f
  have hsame : tally [f'] i = tally [f] i := by
    refine tally_core ?_ i
    rw [map_singleton, map_singleton, hcore]
  unfold whereabouts pushOutput
  dsimp only
  rw [hf', tally_append, hsame]
  omega

theorem setFrameQ_push_whereabouts (s : PipeSync) (side : SyncSide) (f : PipeFrame) (i : ℕ) :
    (s.setFrameQ side (s.frameQ side ++ [f])).whereabouts i = s.whereabouts i + tally [f] i := by
  rw [whereabouts_side _ side, whereabouts_side s side, setFrameQ_same, setFrameQ_other,
    setFrameQ_output, tally_append]
  omega

/-- A pair that is found is not in the queue. -/
theorem setFrameQ_erase_whereabouts (s : PipeSync) (side : SyncSide) {found : PipeFrame → Bool}
    {f : PipeFrame} (hf : (s.frameQ side).find? found = some f) (i : ℕ) :
    (s.setFrameQ side ((s.frameQ side).eraseP found)).whereabouts i + tally [f] i =
      s.whereabouts i := by
  obtain ⟨hfound, q, rest, hq, hnone⟩ := find?_eq_some_iff_append.mp hf
  have herase : (s.frameQ side).eraseP found = q ++ rest := by
    rw [hq, eraseP_append_right _ fun g hg => by simpa using hnone g hg, eraseP_cons_of_pos hfound]
  rw [whereabouts_side _ side, whereabouts_side s side, setFrameQ_same, setFrameQ_other,
    setFrameQ_output, herase, hq, tally_append, tally_append, tally_cons f rest]
  omega

theorem makeFrame_id (s : PipeSync) (masterFrame slaveFrame : PipeFrame) :
    (s.makeFrame masterFrame slaveFrame).1.id = masterFrame.id ∧
      (s.makeFrame masterFrame slaveFrame).2.id = slaveFrame.id := by
  have hid : ∀ f state, (m_setFrameState s.pipeId f state).id = f.id := fun f state =>
    congrArg Prod.fst (m_setFrameState_core s.pipeId f state)
  unfold makeFrame
  split
  · unfold m_makeOneMasterFrame
    dsimp only
    split <;> split <;> first | exact ⟨hid _ _, hid _ _⟩ | (split <;> exact ⟨rfl, rfl⟩)
  · exact ⟨rfl, rfl⟩

/-- **Both frames of a pair go out.** -/
theorem pairOut_whereabouts (s : PipeSync) (masterFrame slaveFrame : PipeFrame) (i : ℕ) :
    (s.pairOut masterFrame slaveFrame).whereabouts i =
      s.whereabouts i + tally [masterFrame] i + tally [slaveFrame] i := by
  have htally : ∀ f f' : PipeFrame, f'.id = f.id → tally [f'] i = tally [f] i := by
    intro f f' hid
    unfold tally
    rw [countP_singleton, countP_singleton, hid]
  obtain ⟨hmaster, hslave⟩ := makeFrame_id s masterFrame slaveFrame
  unfold pairOut
  dsimp only
  rw [pushOutput_whereabouts, pushOutput_whereabouts, htally _ _ hmaster, htally _ _ hslave]
  omega

theorem clearOld_whereabouts (s : PipeSync) (side : SyncSide) (newFrame pairFrame : PipeFrame)
    (i : ℕ) : (s.clearOld side newFrame pairFrame).whereabouts i = s.whereabouts i :=
  ((m_cleanFrameBySyncType_cleans _ _ _ _ _).whereabouts i).trans
    ((m_cleanFrameBySyncType_cleans _ _ _ _ _).whereabouts i)

theorem syncWith_whereabouts (s : PipeSync) (side : SyncSide) (newFrame pairFrame : PipeFrame)
    (i : ℕ) : (s.syncWith side newFrame pairFrame).whereabouts i =
      s.whereabouts i + tally [newFrame] i + tally [pairFrame] i := by
  have hclear := clearOld_whereabouts s side newFrame pairFrame i
  cases side with
  | master =>
    have hpair := pairOut_whereabouts (s.clearOld .master newFrame pairFrame) newFrame pairFrame i
    exact hpair.trans (by rw [hclear])
  | slave =>
    have hpair := pairOut_whereabouts (s.clearOld .slave newFrame pairFrame) pairFrame newFrame i
    exact hpair.trans (by rw [hclear]; exact Nat.add_right_comm _ _ _)

/-- **The frame waits, or goes out with its pair.** -/
theorem m_syncFrame_whereabouts (s : PipeSync) (hwSync : Bool) (newFrame : PipeFrame) (i : ℕ) :
    (s.m_syncFrame hwSync newFrame).whereabouts i = s.whereabouts i + tally [newFrame] i := by
  unfold m_syncFrame
  dsimp only
  split
  · exact setFrameQ_push_whereabouts s _ newFrame i
  · rename_i pairFrame hfind
    have herase := setFrameQ_erase_whereabouts s _ hfind i
    have hsync := syncWith_whereabouts
      (s.setFrameQ (FrameType.side newFrame.frameType).other
        ((s.frameQ (FrameType.side newFrame.frameType).other).eraseP (s.iamFound hwSync newFrame)))
      (FrameType.side newFrame.frameType) newFrame pairFrame i
    omega

theorem passThrough_whereabouts (s : PipeSync) (newFrame : PipeFrame) (i : ℕ) :
    (s.passThrough newFrame).whereabouts i = s.whereabouts i + tally [newFrame] i := by
  refine (pushOutput_whereabouts _ newFrame i).trans ?_
  rw [(m_cleanFrameBySyncType_cleans _ _ _ _ _).whereabouts i,
    (m_cleanFrameBySyncType_cleans _ _ _ _ _).whereabouts i]

theorem passSaving_whereabouts (s : PipeSync) (newFrame : PipeFrame) (i : ℕ) :
    (s.passSaving newFrame).whereabouts i = s.whereabouts i + tally [newFrame] i := by
  refine (pushOutput_whereabouts _ newFrame i).trans ?_
  rw [(m_cleanFrameBySyncType_cleans _ _ _ _ _).whereabouts i,
    (m_cleanFrameBySyncType_cleans _ _ _ _ _).whereabouts i]

theorem markMultiFrame_whereabouts (s : PipeSync) (newFrame : PipeFrame) (i : ℕ) :
    (s.markMultiFrame newFrame).whereabouts i = s.whereabouts i := by
  unfold markMultiFrame
  split
  · split <;> rfl
  · rfl

theorem changeSyncCount_whereabouts (s : PipeSync) (newFrame : PipeFrame) (i : ℕ) :
    (s.changeSyncCount newFrame).whereabouts i = s.whereabouts i := by
  unfold changeSyncCount
  repeat' split
  all_goals rfl

/-- The types of a frame that the pipe knows. -/
def FrameType.isKnown : FrameType → Bool
  | .internal | .internalSlave | .preview | .reprocessing | .previewSlave | .reprocessingSlave
  | .previewDualMaster | .reprocessingDualMaster | .previewDualSlave | .reprocessingDualSlave =>
      true
  | _ => false

/-- **A frame of a known type is kept**, one of another is lost. -/
theorem runByType_whereabouts (s : PipeSync) (hwSync : Bool) (newFrame : PipeFrame) (i : ℕ) :
    (s.runByType hwSync newFrame).whereabouts i =
      s.whereabouts i + if FrameType.isKnown newFrame.frameType then tally [newFrame] i else 0 := by
  unfold runByType
  cases newFrame.frameType with
  | internal | internalSlave =>
    cases newFrame.dualOperationMode with
    | sync =>
      have hmarked := m_syncFrame_whereabouts (s.markMultiFrame newFrame) hwSync newFrame i
      rw [markMultiFrame_whereabouts] at hmarked
      exact hmarked
    | none | master | slave => exact passThrough_whereabouts s newFrame i
  | preview | reprocessing => exact passSaving_whereabouts s newFrame i
  | previewSlave | reprocessingSlave => exact passThrough_whereabouts s newFrame i
  | previewDualMaster | reprocessingDualMaster | previewDualSlave | reprocessingDualSlave =>
    exact m_syncFrame_whereabouts s hwSync newFrame i
  | _ => rfl

theorem cleanByCount_whereabouts (s : PipeSync) (count : ℤ) (i : ℕ) :
    (s.cleanByCount count).whereabouts i = s.whereabouts i := by
  obtain ⟨n, hslave⟩ := m_cleanFrameByMinCount_cleans s .slave count
  obtain ⟨m, hmaster⟩ := m_cleanFrameByMinCount_cleans (s.m_cleanFrameByMinCount .slave count)
    .master count
  exact (hmaster.whereabouts i).trans (hslave.whereabouts i)

theorem cleanByAge_whereabouts (s : PipeSync) (t : ℕ) (i : ℕ) :
    (s.cleanByAge t).whereabouts i = s.whereabouts i := by
  unfold cleanByAge
  split
  · rfl
  · exact ((m_cleanFrameByTimeStamp_cleans _ .master t).whereabouts i).trans
      ((m_cleanFrameByTimeStamp_cleans s .slave t).whereabouts i)

theorem keepSyncCount_whereabouts (s : PipeSync) (i : ℕ) :
    s.keepSyncCount.whereabouts i = s.whereabouts i := by
  unfold keepSyncCount
  split <;> rfl

theorem cleanOld_whereabouts (s : PipeSync) (newFrame : PipeFrame) (i : ℕ) :
    (s.cleanOld newFrame).whereabouts i = s.whereabouts i := by
  show ((s.keepSyncCount.cleanByCount _).cleanByAge _).whereabouts i = _
  rw [cleanByAge_whereabouts, cleanByCount_whereabouts, keepSyncCount_whereabouts]

theorem selectCalbTime_whereabouts (s : PipeSync) (hwSync : Bool) (newFrame : PipeFrame) (i : ℕ) :
    (s.selectCalbTime hwSync newFrame).whereabouts i = s.whereabouts i := by
  unfold selectCalbTime
  split <;> rfl

/-! ## What `m_run` leaves alone -/

/-- The input queue, what came into it and how it left. -/
def traffic (s : PipeSync) : List PipeFrame × List PipeFrame × List PipeFrame × List PipeFrame :=
  (s.inputFrameQ, s.arrived, s.popped, s.released)

/-- And the calibration times. -/
def fixed (s : PipeSync) :
    (List PipeFrame × List PipeFrame × List PipeFrame × List PipeFrame) × ℕ × ℕ × (ℤ → Bool) :=
  (s.traffic, s.syncTimestampMinCalbTime, s.syncTimestampMaxCalbTime, s.needMaxCalbTime)

theorem SameBeside.fixed (h : SameBeside s s') : s'.fixed = s.fixed := by
  rw [h]
  rfl

theorem SameBeside.traffic (h : SameBeside s s') : s'.traffic = s.traffic :=
  congrArg Prod.fst h.fixed

theorem m_cleanFrameBySyncType_fixed (s : PipeSync) (side : SyncSide)
    (baseFrame : Option PipeFrame) (syncType : SyncType) (flagSaveFrame : Bool) :
    (s.m_cleanFrameBySyncType side baseFrame syncType flagSaveFrame).fixed = s.fixed :=
  (m_cleanFrameBySyncType_cleans s side baseFrame syncType flagSaveFrame).same.fixed

theorem cleanByCount_fixed (s : PipeSync) (count : ℤ) :
    (s.cleanByCount count).fixed = s.fixed := by
  obtain ⟨n, hslave⟩ := m_cleanFrameByMinCount_cleans s .slave count
  obtain ⟨m, hmaster⟩ := m_cleanFrameByMinCount_cleans (s.m_cleanFrameByMinCount .slave count)
    .master count
  exact hmaster.same.fixed.trans hslave.same.fixed

theorem cleanByAge_fixed (s : PipeSync) (t : ℕ) : (s.cleanByAge t).fixed = s.fixed := by
  unfold cleanByAge
  split
  · rfl
  · exact (m_cleanFrameByTimeStamp_cleans _ .master t).same.fixed.trans
      (m_cleanFrameByTimeStamp_cleans s .slave t).same.fixed

theorem passThrough_fixed (s : PipeSync) (newFrame : PipeFrame) :
    (s.passThrough newFrame).fixed = s.fixed :=
  (m_cleanFrameBySyncType_fixed _ _ _ _ _).trans (m_cleanFrameBySyncType_fixed _ _ _ _ _)

theorem passSaving_fixed (s : PipeSync) (newFrame : PipeFrame) :
    (s.passSaving newFrame).fixed = s.fixed :=
  (m_cleanFrameBySyncType_fixed _ _ _ _ _).trans (m_cleanFrameBySyncType_fixed _ _ _ _ _)

theorem syncWith_fixed (s : PipeSync) (side : SyncSide) (newFrame pairFrame : PipeFrame) :
    (s.syncWith side newFrame pairFrame).fixed = s.fixed := by
  have hclear : (s.clearOld side newFrame pairFrame).fixed = s.fixed :=
    (m_cleanFrameBySyncType_fixed _ _ _ _ _).trans (m_cleanFrameBySyncType_fixed _ _ _ _ _)
  cases side <;> exact hclear

theorem m_syncFrame_fixed (s : PipeSync) (hwSync : Bool) (newFrame : PipeFrame) :
    (s.m_syncFrame hwSync newFrame).fixed = s.fixed := by
  unfold m_syncFrame
  dsimp only
  split
  · exact (SameBeside.setFrameQ s _ _).fixed
  · exact (syncWith_fixed _ _ _ _).trans (SameBeside.setFrameQ s _ _).fixed

theorem markMultiFrame_fixed (s : PipeSync) (newFrame : PipeFrame) :
    (s.markMultiFrame newFrame).fixed = s.fixed := by
  unfold markMultiFrame
  split
  · split <;> rfl
  · rfl

theorem runByType_fixed (s : PipeSync) (hwSync : Bool) (newFrame : PipeFrame) :
    (s.runByType hwSync newFrame).fixed = s.fixed := by
  unfold runByType
  split
  · split
    · exact (m_syncFrame_fixed _ _ _).trans (markMultiFrame_fixed s newFrame)
    all_goals exact passThrough_fixed s newFrame
  · split
    · exact (m_syncFrame_fixed _ _ _).trans (markMultiFrame_fixed s newFrame)
    all_goals exact passThrough_fixed s newFrame
  case h_3 | h_4 => exact passSaving_fixed s newFrame
  case h_5 | h_6 => exact passThrough_fixed s newFrame
  case h_7 | h_8 | h_9 | h_10 => exact m_syncFrame_fixed s hwSync newFrame
  all_goals rfl

/-- **`m_run` is done with the input queue when it has its frame**, and with
the calibration times when it has selected them. -/
theorem runFrame_fixed (s : PipeSync) (hwSync : Bool) {newFrame : PipeFrame}
    (hcamera : ¬ (newFrame.cameraId < 0 ∨ newFrame.cameraId ≥ cameraIdMax)) :
    (s.runFrame hwSync newFrame).fixed = (s.selectCalbTime hwSync newFrame).fixed := by
  have hchange : ∀ s : PipeSync, (s.changeSyncCount newFrame).fixed = s.fixed := by
    intro s
    unfold changeSyncCount
    repeat' split
    all_goals rfl
  have hold : ∀ s : PipeSync, (s.cleanOld newFrame).fixed = s.fixed := by
    intro s
    have hkeep : s.keepSyncCount.fixed = s.fixed := by
      unfold keepSyncCount
      split <;> rfl
    exact (cleanByAge_fixed _ _).trans ((cleanByCount_fixed _ _).trans hkeep)
  unfold runFrame
  rw [if_neg hcamera]
  refine (hold _).trans ?_
  split
  · exact passThrough_fixed _ _
  · exact (hchange _).trans (runByType_fixed _ _ _)

theorem runFrame_traffic (s : PipeSync) (hwSync : Bool) (newFrame : PipeFrame) :
    (s.runFrame hwSync newFrame).traffic = s.traffic := by
  have hselect : (s.selectCalbTime hwSync newFrame).traffic = s.traffic := by
    unfold selectCalbTime
    split <;> rfl
  by_cases hcamera : newFrame.cameraId < 0 ∨ newFrame.cameraId ≥ cameraIdMax
  · unfold runFrame
    rw [if_pos hcamera]
  · exact (congrArg Prod.fst (runFrame_fixed s hwSync hcamera)).trans hselect

/-! ## The frames over a run -/

/-- **The condition**: the camera is one of the cameras, and the frame is of a
known type or has nothing in it. -/
def Taken (f : PipeFrame) : Prop :=
  0 ≤ f.cameraId ∧ f.cameraId < cameraIdMax ∧ (isInvalid f ∨ FrameType.isKnown f.frameType)

instance (f : PipeFrame) : Decidable (Taken f) := inferInstanceAs (Decidable (_ ∧ _))

/-- **`m_run` keeps a frame exactly when it takes it.** -/
theorem runFrame_whereabouts (s : PipeSync) (hwSync : Bool) (newFrame : PipeFrame) (i : ℕ) :
    (s.runFrame hwSync newFrame).whereabouts i =
      s.whereabouts i + if Taken newFrame then tally [newFrame] i else 0 := by
  unfold runFrame
  split
  · rename_i hcamera
    rw [if_neg fun htaken => by unfold Taken at htaken; omega]
    rfl
  · rename_i hcamera
    have hselect := selectCalbTime_whereabouts s hwSync newFrame i
    dsimp only
    rw [cleanOld_whereabouts]
    by_cases hinvalid : isInvalid newFrame = true
    · have hskipped : ∀ pipeId : SyncPipeId,
          tally [m_setFrameState pipeId newFrame .skipped] i = tally [newFrame] i := by
        intro pipeId
        refine tally_core ?_ i
        rw [map_singleton, map_singleton, m_setFrameState_core]
      have htaken : Taken newFrame := ⟨by omega, by omega, Or.inl hinvalid⟩
      rw [if_pos hinvalid, if_pos htaken, passThrough_whereabouts, hselect]
      exact congrArg (s.whereabouts i + ·) (hskipped _)
    · rw [if_neg hinvalid, changeSyncCount_whereabouts, runByType_whereabouts, hselect]
      by_cases hknown : FrameType.isKnown newFrame.frameType = true
      · rw [if_pos hknown, if_pos ⟨by omega, by omega, Or.inr hknown⟩]
      · rw [if_neg hknown, if_neg fun htaken => htaken.2.2.elim hinvalid hknown]

/-- **No frame is lost or doubled**: a frame is as often in the output queue or
in one of the two frame queues as it was popped. -/
def Conserved (s : PipeSync) : Prop := ∀ i, s.whereabouts i = tally s.popped i

/-- **A stop flushes the pipe**: nothing waits any more, and what has waited
goes out, or is released with the input queue, once. -/
structure Flushes (s : PipeSync) : Prop where
  empty : s.stop.inputFrameQ = [] ∧ s.stop.masterFrameQ = [] ∧ s.stop.slaveFrameQ = []
  output : ∀ i, tally s.stop.output.outputFrameQ i =
    tally s.output.outputFrameQ i + tally s.masterFrameQ i + tally s.slaveFrameQ i
  released : s.stop.released = s.released ++ s.inputFrameQ

/-- The condition, of a step: what `m_run` pops is taken. -/
def Takes (s : PipeSync) : SyncEvent → Prop
  | .run _ => ∀ f ∈ s.inputFrameQ.head?, Taken f
  | _ => True

theorem cleanAll_empty (s : PipeSync) :
    s.cleanAll.masterFrameQ = [] ∧ s.cleanAll.slaveFrameQ = [] := by
  have hslave := m_cleanFrameByMinCount_zero s .slave
  have hmaster := m_cleanFrameByMinCount_zero (s.m_cleanFrameByMinCount .slave 0) .master
  exact ⟨hmaster.stays, hmaster.other.trans hslave.stays⟩

theorem flushes (s : PipeSync) : s.Flushes := by
  obtain ⟨hmaster, hslave⟩ :=
    cleanAll_empty { s with inputFrameQ := [], released := s.released ++ s.inputFrameQ }
  have htraffic : s.stop.traffic = ([], s.arrived, s.popped, s.released ++ s.inputFrameQ) :=
    congrArg Prod.fst (cleanByCount_fixed
      { s with inputFrameQ := [], released := s.released ++ s.inputFrameQ } 0)
  refine ⟨⟨congrArg Prod.fst htraffic, hmaster, hslave⟩, fun i => ?_,
    congrArg (fun t => t.2.2.2) htraffic⟩
  have hwhere : s.stop.whereabouts i = s.whereabouts i :=
    cleanByCount_whereabouts { s with inputFrameQ := [], released := s.released ++ s.inputFrameQ } 0 i
  unfold whereabouts at hwhere
  rw [show s.stop.masterFrameQ = [] from hmaster, show s.stop.slaveFrameQ = [] from hslave] at hwhere
  exact hwhere

/-- What a step pops. -/
def pops (s : PipeSync) : SyncEvent → List PipeFrame
  | .run _ => s.inputFrameQ.head?.toList
  | _ => []

theorem step_popped (s : PipeSync) (e : SyncEvent) : (s.step e).popped = s.popped ++ s.pops e := by
  have hpopped : ∀ {s s' : PipeSync}, s'.traffic = s.traffic → s'.popped = s.popped :=
    fun h => congrArg (fun t => t.2.2.1) h
  cases e with
  | push f => exact (append_nil _).symm
  | run hwSync =>
    show (s.m_run hwSync).popped = s.popped ++ s.inputFrameQ.head?.toList
    unfold m_run
    split
    · rename_i hempty
      rw [hempty]
      exact (append_nil _).symm
    · rename_i newFrame rest hqueue
      rw [hqueue]
      exact hpopped (runFrame_traffic _ hwSync newFrame)
  | timeOut mode =>
    refine Eq.trans ?_ (append_nil _).symm
    show (s.runTimedOut mode).popped = s.popped
    unfold runTimedOut
    split
    · rfl
    · split
      · rfl
      · exact hpopped (congrArg Prod.fst (cleanByCount_fixed s 0))
  | start minFps maxFps =>
    exact (hpopped (congrArg Prod.fst (cleanByCount_fixed s 0))).trans (append_nil _).symm
  | stop =>
    exact (hpopped (congrArg Prod.fst (cleanByCount_fixed
      { s with inputFrameQ := [], released := s.released ++ s.inputFrameQ } 0))).trans
        (append_nil _).symm

/-- **A step keeps what it takes.** -/
theorem step_whereabouts (s : PipeSync) (e : SyncEvent) (i : ℕ) :
    (s.step e).whereabouts i =
      s.whereabouts i + tally ((s.pops e).filter fun f => Taken f) i := by
  cases e with
  | push f => rfl
  | run hwSync =>
    show (s.m_run hwSync).whereabouts i =
      s.whereabouts i + tally (s.inputFrameQ.head?.toList.filter fun f => Taken f) i
    unfold m_run
    split
    · rename_i hempty
      rw [hempty]
      rfl
    · rename_i newFrame rest hqueue
      rw [runFrame_whereabouts, hqueue]
      show s.whereabouts i + _ = s.whereabouts i + tally ([newFrame].filter fun f => Taken f) i
      by_cases htaken : Taken newFrame
      · rw [if_pos htaken, filter_cons_of_pos (by simpa using htaken)]
        rfl
      · rw [if_neg htaken, filter_cons_of_neg (by simpa using htaken)]
        rfl
  | timeOut mode =>
    show (s.runTimedOut mode).whereabouts i = s.whereabouts i
    unfold runTimedOut
    split
    · rfl
    · split
      · rfl
      · exact cleanByCount_whereabouts s 0 i
  | start minFps maxFps => exact cleanByCount_whereabouts s 0 i
  | stop =>
    exact cleanByCount_whereabouts
      { s with inputFrameQ := [], released := s.released ++ s.inputFrameQ } 0 i

/-- Where the frames are that were taken. -/
def Kept (s : PipeSync) : Prop :=
  ∀ i, s.whereabouts i = tally (s.popped.filter fun f => Taken f) i

theorem Kept.step (h : s.Kept) (e : SyncEvent) : (s.step e).Kept := by
  intro i
  rw [step_whereabouts, step_popped, filter_append, tally_append, h i]

/-- A frame that was not taken is nowhere. -/
theorem Kept.conserved_iff (h : s.Kept) : s.Conserved ↔ ∀ f ∈ s.popped, Taken f := by
  constructor
  · intro hconserved f hf
    have hlength : ∀ i, tally (s.popped.filter fun f => Taken f) i = tally s.popped i := fun i =>
      (h i).symm.trans (hconserved i)
    by_contra hnot
    have hmem : f ∈ s.popped.filter fun f => !decide (Taken f) :=
      mem_filter.mpr ⟨hf, by simpa using hnot⟩
    have hpos : 0 < tally (s.popped.filter fun f => !decide (Taken f)) f.id :=
      countP_pos_iff.mpr ⟨f, hmem, by simp⟩
    have hsplit := tally_perm (filter_append_perm (fun f => decide (Taken f)) s.popped) f.id
    rw [tally_append] at hsplit
    have := hlength f.id
    omega
  · intro htaken i
    rw [h i, filter_eq_self.mpr fun f hf => by simpa using htaken f hf]

/-- What is popped later. -/
theorem Kept.always_iff (h : s.Kept) (events : List SyncEvent) :
    Run.Always PipeSync.step (fun s => s.Conserved ∧ s.Flushes) s events ↔
      (∀ f ∈ s.popped, Taken f) ∧ Run.Throughout PipeSync.step Takes s events := by
  induction events generalizing s with
  | nil =>
    show s.Conserved ∧ s.Flushes ↔ _ ∧ True
    rw [h.conserved_iff]
    exact ⟨fun hs => ⟨hs.1, trivial⟩, fun hs => ⟨hs.1, flushes s⟩⟩
  | cons e events ih =>
    have hpops : (∀ f ∈ (s.step e).popped, Taken f) ↔
        (∀ f ∈ s.popped, Taken f) ∧ s.Takes e := by
      rw [step_popped, forall_mem_append]
      refine and_congr Iff.rfl ?_
      cases e with
      | run hwSync =>
        show (∀ f ∈ s.inputFrameQ.head?.toList, Taken f) ↔ ∀ f ∈ s.inputFrameQ.head?, Taken f
        simp only [Option.mem_toList, Option.mem_def]
      | _ => exact ⟨fun _ => trivial, fun _ _ hf => absurd hf not_mem_nil⟩
    show (s.Conserved ∧ s.Flushes) ∧ Run.Always PipeSync.step _ (s.step e) events ↔
      _ ∧ s.Takes e ∧ Run.Throughout PipeSync.step Takes (s.step e) events
    rw [ih (h.step e), hpops, h.conserved_iff]
    constructor
    · rintro ⟨-, ⟨hpopped, htakes⟩, hrest⟩
      exact ⟨hpopped, htakes, hrest⟩
    · rintro ⟨hpopped, htakes, hrest⟩
      exact ⟨⟨hpopped, flushes s⟩, ⟨hpopped, htakes⟩, hrest⟩

/-- **The pipe conserves frames exactly when it takes every frame.** In every
run, whatever the pipe and its sync type: no frame is lost or doubled and a
stop flushes the pipe, in every state, if and only if each frame that `m_run`
pops is of one of the cameras, and of a known type or with nothing in it. -/
theorem frames_conserved (pipeId : SyncPipeId) (reprocessing : Bool)
    (makeFrameType : MakeFrameType) (syncType : SyncType) (events : List SyncEvent) :
    Run.Always step (fun s => s.Conserved ∧ s.Flushes)
        (initial pipeId reprocessing makeFrameType syncType) events ↔
      Run.Throughout step Takes (initial pipeId reprocessing makeFrameType syncType) events := by
  have hkept : (initial pipeId reprocessing makeFrameType syncType).Kept := fun _ => rfl
  rw [Kept.always_iff hkept]
  exact and_iff_right fun f hf => absurd hf not_mem_nil

/-- A frame of the back camera while it turns to its standby. -/
def transitionFrame : PipeFrame where
  id := 1
  cameraId := 0
  frameType := .transition
  frameState := .running
  dualOperationMode := .master
  frameCount := 7
  timeStampBoot := 1000000000
  maxFrameIndex := 0
  srcBuffer := 3
  srcBuffer2 := -1
  srcBufferError := false
  hwfcRequest := false
  dstEntity := true
  dstBuffer := none
  dstBuffer2 := none
  slaveOf := none

/-- **A frame of another type is lost**: the pipe has popped it, and it neither
goes out nor waits. -/
theorem not_frames_conserved :
    ¬ Run.Always step (fun s => s.Conserved ∧ s.Flushes) (create .sync false .oneMaster)
      [.start 30 30, .push transitionFrame, .run false] := by
  intro h
  have hlost := h.last.1 1
  exact absurd hlost (by decide)

end PipeSync

end ExynosVendor.Camera
