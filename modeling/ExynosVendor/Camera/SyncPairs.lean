import ExynosVendor.Camera.SyncFrames

/-!
# The pairs of the sync pipe

The frames of the two cameras are matched by their time stamps. A frame finds
its pair when it comes or waits, so that of the frames that wait no two are
within both calibration times; and the queue of the master gives up its oldest
frames first, so that the master's frames go out in the order of their time.

The pipe compares milliseconds. Of a run inside `m_run` the frames in hand,
which are in no queue, are kept beside the state.
-/

namespace ExynosVendor.Camera

open List

/-- The time stamps of the frames of a camera. -/
def times (c : ℤ) (q : List PipeFrame) : List ℕ :=
  (q.filter fun f => f.cameraId = c).map PipeFrame.ms

@[simp] theorem times_nil (c : ℤ) : times c [] = [] := rfl

@[simp] theorem times_append (c : ℤ) (q q' : List PipeFrame) :
    times c (q ++ q') = times c q ++ times c q' := by
  unfold times
  rw [filter_append, map_append]

variable {q : List PipeFrame} {c : ℤ} {f : PipeFrame}

variable {q' : List PipeFrame}

theorem times_core (h : q.map PipeFrame.core = q'.map PipeFrame.core) (c : ℤ) :
    times c q = times c q' := by
  have key : ∀ q : List PipeFrame, times c q =
      ((q.map PipeFrame.core).filter fun x => x.2.1 = c).map fun x => x.2.2.1 / 1000000 := by
    intro q
    rw [filter_map, map_map]
    rfl
  rw [key q, key q', h]

theorem times_sublist (h : q.Sublist q') (c : ℤ) :
    (times c q).Sublist (times c q') :=
  (h.filter _).map _

theorem mem_times {t : ℕ} :
    t ∈ times c q ↔ ∃ f ∈ q, f.cameraId = c ∧ f.ms = t := by
  unfold times
  simp only [mem_map, mem_filter, decide_eq_true_eq, and_assoc]

theorem times_cons_of_eq (h : f.cameraId = c) (q : List PipeFrame) :
    times c (f :: q) = f.ms :: times c q := by
  unfold times
  rw [filter_cons_of_pos (by simpa using h), map_cons]

theorem times_cons_of_ne (h : f.cameraId ≠ c) (q : List PipeFrame) :
    times c (f :: q) = times c q := by
  unfold times
  rw [filter_cons_of_neg (by simpa using h)]

theorem times_eq_nil (h : ∀ f ∈ q, f.cameraId ≠ c) :
    times c q = [] := by
  unfold times
  rw [filter_eq_nil_iff.mpr fun f hf => by simpa using h f hf]
  rfl

/-- The slave frames with which the frames of a queue are combined. -/
def combined (q : List PipeFrame) : List ℕ := q.filterMap fun f => f.slaveOf.map SlaveOf.id

@[simp] theorem combined_append (q q' : List PipeFrame) :
    combined (q ++ q') = combined q ++ combined q' :=
  filterMap_append

theorem combined_core (h : q.map PipeFrame.core = q'.map PipeFrame.core) :
    combined q = combined q' := by
  have key : ∀ q : List PipeFrame,
      combined q = (q.map PipeFrame.core).filterMap fun x => x.2.2.2.map SlaveOf.id := by
    intro q
    rw [filterMap_map]
    rfl
  rw [key q, key q', h]

theorem combined_eq_nil (h : ∀ f ∈ q, f.slaveOf = none) :
    combined q = [] := by
  refine filterMap_eq_nil_iff.mpr fun f hf => ?_
  rw [h f hf]
  rfl

theorem core_mem (h : q.map PipeFrame.core = q'.map PipeFrame.core) (hf : f ∈ q) :
    ∃ g ∈ q', g.core = f.core := by
  have hmem : f.core ∈ q'.map PipeFrame.core := h ▸ mem_map_of_mem hf
  exact mem_map.mp hmem

/-- The milliseconds of a slave frame, as its master has it. -/
def SlaveOf.ms (g : SlaveOf) : ℕ := g.timeStampBoot / 1000000

/-- A frame that is to be matched, of the master or of the slave. -/
def PipeFrame.syncSide (f : PipeFrame) : Option SyncSide :=
  match f.frameType with
  | .previewDualMaster | .reprocessingDualMaster => some .master
  | .previewDualSlave | .reprocessingDualSlave => some .slave
  | .internal => if f.dualOperationMode = .sync then some .master else none
  | .internalSlave => if f.dualOperationMode = .sync then some .slave else none
  | _ => none

/-- The camera of a side. -/
def SyncSide.camera (a b : ℤ) : SyncSide → ℤ
  | .master => a
  | .slave => b

namespace PipeSync

variable {a b : ℤ} {n : ℕ} {Q : PipeFrame → SlaveOf → Prop} {s s' : PipeSync}
  {hand p : List PipeFrame}

/-- **The invariant**, with the frames in hand and those that are to come: `a`
is the camera of the master, and `b` of the slave. Of the output, the frames
from `n` on are new, and `Q` is said of them and their slaves. -/
structure Matching (a b : ℤ) (n : ℕ) (Q : PipeFrame → SlaveOf → Prop) (s : PipeSync)
    (hand p : List PipeFrame) : Prop where
  syncType : s.syncType = .timeStamp
  /-- The master's frames are in the order of their time. -/
  line : (times a s.output.outputFrameQ ++ times a s.masterFrameQ ++ times a p).Pairwise (· ≤ ·)
  known : ∀ t ∈ times a s.output.outputFrameQ ++ times a s.masterFrameQ ++ times a p,
    t ∈ times a s.arrived
  /-- What waits has been popped, of its camera, and has no pair. -/
  camera : ∀ side, ∀ g ∈ s.frameQ side, g.cameraId = side.camera a b
  popped : ∀ side, ∀ g ∈ s.frameQ side, g ∈ s.popped
  single : ∀ side, ∀ g ∈ s.frameQ side, g.slaveOf = none
  /-- No frame is there twice. -/
  count : ∀ i, s.whereabouts i + tally hand i + tally p i ≤ tally s.arrived i
  distinct : ∀ i, tally s.arrived i ≤ 1
  /-- No slave frame is combined twice. -/
  once : (combined s.output.outputFrameQ).Nodup
  gone : ∀ i ∈ combined s.output.outputFrameQ, 0 < tally s.output.outputFrameQ i
  unpaired : ∀ m ∈ s.masterFrameQ, ∀ g ∈ s.slaveFrameQ,
    min s.syncTimestampMinCalbTime s.syncTimestampMaxCalbTime < diffMs m.ms g.ms
  old : n ≤ s.output.outputFrameQ.length
  new : ∀ f ∈ s.output.outputFrameQ.drop n, ∀ g, f.slaveOf = some g → Q f g
  marked : s.Marking → ∀ f ∈ s.output.outputFrameQ, f.cameraId = a → f.Synchronised →
    f.slaveOf ≠ none

/-- What is taken out of the middle of a line goes to the end of its front. -/
theorem pairwise_move {o q l gone kept : List ℕ} (h : (o ++ q ++ l).Pairwise (· ≤ ·))
    (hgone : gone.Sublist q) (hkept : kept.Sublist q) (horder : ∀ x ∈ gone, ∀ y ∈ kept, x ≤ y) :
    ((o ++ gone) ++ kept ++ l).Pairwise (· ≤ ·) := by
  rw [pairwise_append, pairwise_append] at h
  obtain ⟨⟨ho, hq, hoq⟩, hl, hoql⟩ := h
  rw [pairwise_append, pairwise_append, pairwise_append]
  refine ⟨⟨⟨ho, hq.sublist hgone, fun x hx y hy => hoq x hx y (hgone.subset hy)⟩,
    hq.sublist hkept, fun x hx y hy => ?_⟩, hl, fun x hx y hy => hoql x ?_ y hy⟩
  · rcases mem_append.mp hx with hx | hx
    · exact hoq x hx y (hkept.subset hy)
    · exact horder x hx y hy
  · rcases mem_append.mp hx with hx | hx
    · rcases mem_append.mp hx with hx | hx
      · exact mem_append_left _ hx
      · exact mem_append_right _ (hgone.subset hx)
    · exact mem_append_right _ (hkept.subset hx)

variable {side : SyncSide} {f newFrame : PipeFrame} {hwSync : Bool}

/-- **A cleaning keeps the invariant** when it takes the oldest frames of the
master. -/
theorem Matching.cleans (hab : a ≠ b) (h : Matching a b n Q s hand p) {gone kept : List PipeFrame}
    (hcleans : Cleans s s' side gone kept)
    (horder : side = .master → ∀ f ∈ gone, ∀ g ∈ kept, f.ms ≤ g.ms) :
    Matching a b n Q s' hand p := by
  obtain ⟨out, hout, hcore, hmarks⟩ := hcleans.out
  have hsub : ∀ side', (s'.frameQ side').Sublist (s.frameQ side') := by
    intro side'
    by_cases hside : side' = side
    · rw [hside, hcleans.stays]
      exact hcleans.kept_sublist
    · have hother : side' = side.other := by cases side <;> cases side' <;> first | rfl | contradiction
      rw [hother, hcleans.other]
  have hnone : ∀ f ∈ out, f.slaveOf = none := by
    intro f hf
    obtain ⟨g, hg, hgf⟩ := core_mem hcore hf
    have hgnone := h.single side g (hcleans.gone_sublist.subset hg)
    exact (congrArg (fun c => c.2.2.2) hgf).symm.trans hgnone
  have hcombined : combined s'.output.outputFrameQ = combined s.output.outputFrameQ := by
    rw [hout, combined_append, combined_eq_nil hnone, append_nil]
  have harrived : s'.arrived = s.arrived := congrArg (fun t => t.2.1) hcleans.same.traffic
  have hpopped : s'.popped = s.popped := congrArg (fun t => t.2.2.1) hcleans.same.traffic
  have hline : (times a s'.output.outputFrameQ ++ times a s'.masterFrameQ ++ times a p).Pairwise
        (· ≤ ·) ∧
      ∀ t ∈ times a s'.output.outputFrameQ ++ times a s'.masterFrameQ ++ times a p,
        t ∈ times a s.output.outputFrameQ ++ times a s.masterFrameQ ++ times a p := by
    rw [hout, times_append, times_core hcore]
    cases side with
    | master =>
      rw [show s'.masterFrameQ = kept from hcleans.stays]
      have hgone := times_sublist hcleans.gone_sublist a
      have hkept := times_sublist hcleans.kept_sublist a
      refine ⟨pairwise_move h.line hgone hkept fun x hx y hy => ?_, fun t ht => ?_⟩
      · obtain ⟨f, hf, -, rfl⟩ := mem_times.mp hx
        obtain ⟨g, hg, -, rfl⟩ := mem_times.mp hy
        exact horder rfl f hf g hg
      · simp only [mem_append] at ht ⊢
        rcases ht with ((ht | ht) | ht) | ht
        · exact Or.inl (Or.inl ht)
        · exact Or.inl (Or.inr (hgone.subset ht))
        · exact Or.inl (Or.inr (hkept.subset ht))
        · exact Or.inr ht
    | slave =>
      have hgone : times a gone = [] := times_eq_nil fun f hf => by
        rw [h.camera .slave f (hcleans.gone_sublist.subset hf)]
        exact Ne.symm hab
      rw [hgone, append_nil, show s'.masterFrameQ = s.masterFrameQ from hcleans.other]
      exact ⟨h.line, fun t ht => ht⟩
  refine ⟨?_, hline.1, fun t ht => ?_, fun side' g hg => h.camera side' g ((hsub side').subset hg),
    fun side' g hg => ?_, fun side' g hg => h.single side' g ((hsub side').subset hg), fun i => ?_,
    fun i => ?_, ?_, fun i hi => ?_, fun m hm g hg => ?_, ?_, ?_, fun hs f hf hcamera hsync => ?_⟩
  · rw [hcleans.same]
    exact h.syncType
  · rw [harrived]
    exact h.known t (hline.2 t ht)
  · rw [hpopped]
    exact h.popped side' g ((hsub side').subset hg)
  · rw [hcleans.whereabouts i, harrived]
    exact h.count i
  · rw [harrived]
    exact h.distinct i
  · rw [hcombined]
    exact h.once
  · rw [hcombined] at hi
    have := h.gone i hi
    rw [hout, tally_append]
    omega
  · rw [hcleans.same]
    exact h.unpaired m ((hsub .master).subset hm) g ((hsub .slave).subset hg)
  · rw [hout, length_append]
    exact Nat.le_trans h.old (Nat.le_add_right _ _)
  · rw [hout, drop_append_of_le_length h.old]
    intro f hf g hg
    rcases mem_append.mp hf with hf | hf
    · exact h.new f hf g hg
    · rw [hnone f hf] at hg
      contradiction
  · rw [hcleans.same] at hs
    rw [hout] at hf
    rcases mem_append.mp hf with hf | hf
    · exact h.marked hs f hf hcamera hsync
    · exact absurd hsync (hmarks hs f hf)

/-- **A frame of the master is due**: what has gone out is not younger, and
what is to come is not older. -/
structure Due (a : ℤ) (s : PipeSync) (p : List PipeFrame) (f : PipeFrame) : Prop where
  after : ∀ t ∈ times a s.output.outputFrameQ, t ≤ f.ms
  before : ∀ t ∈ times a p, f.ms ≤ t
  known : f.ms ∈ times a s.arrived

/-- It is still due when older ones are cleaned. -/
theorem Due.cleans (hab : a ≠ b) {m : PipeFrame} (hdue : Due a s p m)
    (h : Matching a b n Q s hand p) {gone kept : List PipeFrame}
    (hcleans : Cleans s s' side gone kept) (hold : side = .master → ∀ f ∈ gone, f.ms ≤ m.ms) :
    Due a s' p m := by
  obtain ⟨out, hout, hcore, -⟩ := hcleans.out
  refine ⟨fun t ht => ?_, hdue.before, ?_⟩
  · rw [hout, times_append, mem_append, times_core hcore] at ht
    rcases ht with ht | ht
    · exact hdue.after t ht
    · obtain ⟨f, hf, hcamera, rfl⟩ := mem_times.mp ht
      cases side with
      | master => exact hold rfl f hf
      | slave =>
        have hslave := h.camera .slave f (hcleans.gone_sublist.subset hf)
        exact absurd (hcamera.symm.trans hslave) hab
  · rw [show s'.arrived = s.arrived from congrArg (fun t => t.2.1) hcleans.same.traffic]
    exact hdue.known

/-- **The next frame is taken in hand.** -/
theorem Matching.take (h : Matching a b n Q s hand (f :: p)) :
    Matching a b n Q s (f :: hand) p ∧
      (f.cameraId = a → Due a s p f ∧ ∀ t ∈ times a s.masterFrameQ, t ≤ f.ms) := by
  have hsub : (times a p).Sublist (times a (f :: p)) := times_sublist (sublist_cons_self f p) a
  constructor
  · refine ⟨h.syncType, h.line.sublist ((List.Sublist.refl _).append hsub), fun t ht => ?_,
      h.camera, h.popped, h.single, fun i => ?_, h.distinct, h.once, h.gone, h.unpaired, h.old,
      h.new, h.marked⟩
    · refine h.known t (((List.Sublist.refl _).append hsub).subset ht)
    · have hcount := h.count i
      rw [tally_cons f p] at hcount
      rw [tally_cons f hand]
      omega
  · intro hcamera
    have hline := h.line
    rw [times_cons_of_eq hcamera, pairwise_append] at hline
    obtain ⟨-, htail, hfront⟩ := hline
    have hmem : f.ms ∈ f.ms :: times a p := mem_cons_self
    refine ⟨⟨fun t ht => hfront t (mem_append_left _ ht) _ hmem,
      fun t ht => rel_of_pairwise_cons htail ht, ?_⟩,
      fun t ht => hfront t (mem_append_right _ ht) _ hmem⟩
    refine h.known _ (mem_append_right _ ?_)
    rw [times_cons_of_eq hcamera]
    exact hmem

/-- **A frame in hand goes out**: one of the master when it is due and no older
one waits, and one that has a slave when the slave has gone out alone. -/
theorem Matching.pushOutput (h : Matching a b n Q s (f :: hand) p)
    (hline : f.cameraId = a → Due a s p f ∧ ∀ t ∈ times a s.masterFrameQ, f.ms ≤ t)
    (hslave : ∀ g, f.slaveOf = some g → 0 < tally s.output.outputFrameQ g.id ∧
      g.id ∉ combined s.output.outputFrameQ ∧ ∀ f' : PipeFrame, f'.core = f.core → Q f' g)
    (hmarked : s.Marking → f.cameraId = a → f.Synchronised → f.slaveOf ≠ none) :
    Matching a b n Q (s.pushOutput f) hand p := by
  obtain ⟨f', hout, hcore, hsync⟩ := m_pushFrameToOutputQ_out s.pipeId s.output f
  have hout' : (s.pushOutput f).output.outputFrameQ = s.output.outputFrameQ ++ [f'] := hout
  have hslaveOf : f'.slaveOf = f.slaveOf := congrArg (fun c => c.2.2.2) hcore
  have hmap : [f'].map PipeFrame.core = [f].map PipeFrame.core := by
    rw [map_singleton, map_singleton, hcore]
  have hcombined : combined [f] = f.slaveOf.toList.map SlaveOf.id := by
    unfold combined
    cases hf : f.slaveOf <;> simp [hf]
  refine ⟨h.syncType, ?_, fun t ht => ?_, h.camera, h.popped, h.single, fun i => ?_, h.distinct,
    ?_, fun i hi => ?_, h.unpaired, ?_, ?_, fun hs x hx hcamera hmark => ?_⟩
  · rw [hout', times_append, times_core hmap]
    show (_ ++ _ ++ times a s.masterFrameQ ++ times a p).Pairwise _
    have hpair := h.line
    by_cases hcamera : f.cameraId = a
    · obtain ⟨hdue, hwait⟩ := hline hcamera
      rw [times_cons_of_eq hcamera, times_nil]
      rw [append_assoc, pairwise_append] at hpair ⊢
      obtain ⟨hfront, hrest, hcross⟩ := hpair
      refine ⟨?_, hrest, fun x hx y hy => ?_⟩
      · rw [pairwise_append]
        refine ⟨hfront, pairwise_singleton _ _, fun x hx y hy => ?_⟩
        rw [mem_singleton.mp hy]
        exact hdue.after x hx
      · rcases mem_append.mp hx with hx | hx
        · exact hcross x hx y hy
        · rw [mem_singleton.mp hx]
          exact (mem_append.mp hy).elim (hwait y) (hdue.before y)
    · rw [times_cons_of_ne hcamera, times_nil, append_nil]
      exact hpair
  · rw [hout', times_append, times_core hmap] at ht
    by_cases hcamera : f.cameraId = a
    · rw [times_cons_of_eq hcamera, times_nil] at ht
      simp only [mem_append, mem_singleton] at ht
      rcases ht with ((ht | ht) | ht) | ht
      · exact h.known t (mem_append_left _ (mem_append_left _ ht))
      · rw [ht]
        exact (hline hcamera).1.known
      · exact h.known t (mem_append_left _ (mem_append_right _ ht))
      · exact h.known t (mem_append_right _ ht)
    · rw [times_cons_of_ne hcamera, times_nil, append_nil] at ht
      exact h.known t ht
  · have hcount := h.count i
    rw [tally_cons] at hcount
    rw [pushOutput_whereabouts]
    show _ ≤ tally s.arrived i
    omega
  · rw [hout', combined_append, combined_core hmap, hcombined]
    cases hf : f.slaveOf with
    | none => simpa using h.once
    | some g =>
      refine nodup_append.mpr ⟨h.once, pairwise_singleton _ _, fun x hx y hy => ?_⟩
      rintro rfl
      rw [mem_singleton.mp hy] at hx
      exact (hslave g hf).2.1 hx
  · rw [hout', combined_append, combined_core hmap, hcombined, mem_append] at hi
    rw [hout', tally_append]
    rcases hi with hi | hi
    · have := h.gone i hi
      omega
    · obtain ⟨g, hg, rfl⟩ := mem_map.mp hi
      have := (hslave g (Option.mem_toList.mp hg)).1
      omega
  · rw [hout', length_append]
    exact Nat.le_trans h.old (Nat.le_add_right _ _)
  · rw [hout', drop_append_of_le_length h.old]
    intro x hx g hg
    rcases mem_append.mp hx with hx | hx
    · exact h.new x hx g hg
    · rw [mem_singleton.mp hx] at hg ⊢
      exact (hslave g (hslaveOf ▸ hg)).2.2 f' hcore
  · rw [hout'] at hx
    rcases mem_append.mp hx with hx | hx
    · exact h.marked hs x hx hcamera hmark
    · rw [mem_singleton.mp hx] at hcamera hmark ⊢
      rw [hslaveOf]
      exact hmarked hs ((congrArg (fun c => c.2.1) hcore).symm.trans hcamera) (hsync hmark)

/-- What is known of a frame in hand that is to be matched. -/
structure InHand (a b : ℤ) (s : PipeSync) (side : SyncSide) (f : PipeFrame) : Prop where
  camera : f.cameraId = side.camera a b
  popped : f ∈ s.popped
  single : f.slaveOf = none

/-- **A frame in hand waits** when no frame of the other queue is its pair. -/
theorem Matching.wait (hab : a ≠ b) (h : Matching a b n Q s (f :: hand) p)
    (hf : InHand a b s side f)
    (hline : f.cameraId = a → Due a s p f ∧ ∀ t ∈ times a s.masterFrameQ, t ≤ f.ms)
    (hpair : ∀ g ∈ s.frameQ side.other,
      min s.syncTimestampMinCalbTime s.syncTimestampMaxCalbTime < diffMs f.ms g.ms) :
    Matching a b n Q (s.setFrameQ side (s.frameQ side ++ [f])) hand p := by
  have hmem : ∀ side', ∀ g ∈ (s.setFrameQ side (s.frameQ side ++ [f])).frameQ side',
      g ∈ s.frameQ side' ∨ (side' = side ∧ g = f) := by
    intro side' g hg
    by_cases hside : side' = side
    · subst hside
      rw [setFrameQ_same] at hg
      exact (mem_append.mp hg).imp id fun hg => ⟨rfl, mem_singleton.mp hg⟩
    · have hother : side' = side.other := by cases side <;> cases side' <;> first | rfl | contradiction
      rw [hother, setFrameQ_other] at hg
      exact Or.inl (hother ▸ hg)
  have hmaster : times a (s.setFrameQ side (s.frameQ side ++ [f])).masterFrameQ =
      times a s.masterFrameQ ++ times a [f] := by
    cases side with
    | master => exact times_append a s.masterFrameQ [f]
    | slave =>
      rw [times_cons_of_ne (by rw [hf.camera]; exact Ne.symm hab), times_nil, append_nil]
      rfl
  have hsame : SameBeside s (s.setFrameQ side (s.frameQ side ++ [f])) := SameBeside.setFrameQ s side _
  have hout := setFrameQ_output s side (s.frameQ side ++ [f])
  have hlines : times a s.output.outputFrameQ ++ (times a s.masterFrameQ ++ times a [f]) ++
      times a p = times a s.output.outputFrameQ ++ times a s.masterFrameQ ++ (times a [f] ++ times a p) := by
    simp only [append_assoc]
  have hmore : (times a s.output.outputFrameQ ++ times a s.masterFrameQ ++
        (times a [f] ++ times a p)).Pairwise (· ≤ ·) ∧
      ∀ t ∈ times a s.output.outputFrameQ ++ times a s.masterFrameQ ++ (times a [f] ++ times a p),
        t ∈ times a s.arrived := by
    by_cases hcamera : f.cameraId = a
    · obtain ⟨hdue, hwait⟩ := hline hcamera
      have hpairwise := h.line
      rw [pairwise_append] at hpairwise
      obtain ⟨hfront, hrest, hcross⟩ := hpairwise
      rw [times_cons_of_eq hcamera, times_nil]
      constructor
      · rw [pairwise_append]
        refine ⟨hfront, pairwise_cons.mpr ⟨hdue.before, hrest⟩, fun x hx y hy => ?_⟩
        rcases mem_cons.mp hy with rfl | hy
        · exact (mem_append.mp hx).elim (hdue.after x) (hwait x)
        · exact hcross x hx y hy
      · intro t ht
        rcases mem_append.mp ht with ht | ht
        · exact h.known t (mem_append_left _ ht)
        · rcases mem_cons.mp ht with rfl | ht
          · exact hdue.known
          · exact h.known t (mem_append_right _ ht)
    · rw [times_cons_of_ne hcamera, times_nil]
      exact ⟨h.line, h.known⟩
  refine ⟨?_, ?_, fun t ht => ?_, fun side' g hg => ?_, fun side' g hg => ?_,
    fun side' g hg => ?_, fun i => ?_, ?_, ?_, ?_, fun m hm g hg => ?_, ?_, ?_, fun hs => ?_⟩
  · rw [hsame]
    exact h.syncType
  · rw [hout, hmaster, hlines]
    exact hmore.1
  · rw [hout, hmaster, hlines] at ht
    rw [hsame]
    exact hmore.2 t ht
  · rcases hmem side' g hg with hg | ⟨rfl, rfl⟩
    · exact h.camera side' g hg
    · exact hf.camera
  · rw [hsame]
    rcases hmem side' g hg with hg | ⟨rfl, rfl⟩
    · exact h.popped side' g hg
    · exact hf.popped
  · rcases hmem side' g hg with hg | ⟨rfl, rfl⟩
    · exact h.single side' g hg
    · exact hf.single
  · have hcount := h.count i
    rw [tally_cons] at hcount
    rw [setFrameQ_push_whereabouts, show (s.setFrameQ side (s.frameQ side ++ [f])).arrived = s.arrived
      from congrArg (fun t => t.2.1) hsame.traffic]
    omega
  · rw [hsame]
    exact h.distinct
  · rw [hout]
    exact h.once
  · rw [hout]
    exact h.gone
  · rw [hsame]
    show min s.syncTimestampMinCalbTime s.syncTimestampMaxCalbTime < diffMs m.ms g.ms
    rcases hmem .master m hm with hm' | ⟨hside, rfl⟩
    · rcases hmem .slave g hg with hg' | ⟨hside, rfl⟩
      · exact h.unpaired m hm' g hg'
      · have := hpair m (by rw [← hside]; exact hm')
        unfold diffMs at this ⊢
        omega
    · rcases hmem .slave g hg with hg' | ⟨hside', rfl⟩
      · exact hpair g (by rw [← hside]; exact hg')
      · rw [← hside'] at hside
        contradiction
  · rw [hout]
    exact h.old
  · rw [hout]
    exact h.new
  · rw [hsame] at hs
    rw [hout]
    exact h.marked hs

/-- **The pair that is found is taken in hand.** -/
theorem Matching.takePair {found : PipeFrame → Bool} (h : Matching a b n Q s hand p)
    (hf : (s.frameQ side).find? found = some f) :
    Matching a b n Q (s.setFrameQ side ((s.frameQ side).eraseP found)) (f :: hand) p ∧
      InHand a b s side f ∧ (side = .master →
        Due a (s.setFrameQ side ((s.frameQ side).eraseP found)) p f) := by
  have hmem : f ∈ s.frameQ side := mem_of_find?_eq_some hf
  have hout := setFrameQ_output s side ((s.frameQ side).eraseP found)
  have hsame : SameBeside s (s.setFrameQ side ((s.frameQ side).eraseP found)) :=
    SameBeside.setFrameQ s side _
  have harrived : (s.setFrameQ side ((s.frameQ side).eraseP found)).arrived = s.arrived :=
    congrArg (fun t => t.2.1) hsame.traffic
  have hsub : ∀ side', ((s.setFrameQ side ((s.frameQ side).eraseP found)).frameQ side').Sublist
      (s.frameQ side') := by
    intro side'
    by_cases hside : side' = side
    · rw [hside, setFrameQ_same]
      exact eraseP_sublist
    · have hother : side' = side.other := by cases side <;> cases side' <;> first | rfl | contradiction
      rw [hother, setFrameQ_other]
  have hline : (times a s.output.outputFrameQ ++ times a (s.setFrameQ side
      ((s.frameQ side).eraseP found)).masterFrameQ ++ times a p).Sublist
        (times a s.output.outputFrameQ ++ times a s.masterFrameQ ++ times a p) :=
    ((List.Sublist.refl _).append (times_sublist (hsub .master) a)).append (List.Sublist.refl _)
  refine ⟨⟨?_, ?_, fun t ht => ?_, fun side' g hg => ?_, fun side' g hg => ?_,
    fun side' g hg => ?_, fun i => ?_, ?_, ?_, ?_, fun m hm g hg => ?_, ?_, ?_, fun hs => ?_⟩,
    ⟨h.camera side f hmem, h.popped side f hmem, h.single side f hmem⟩, ?_⟩
  · rw [hsame]
    exact h.syncType
  · rw [hout]
    exact h.line.sublist hline
  · rw [hout] at ht
    rw [harrived]
    exact h.known t (hline.subset ht)
  · exact h.camera side' g ((hsub side').subset hg)
  · rw [hsame]
    exact h.popped side' g ((hsub side').subset hg)
  · exact h.single side' g ((hsub side').subset hg)
  · have hcount := h.count i
    have hwhere := setFrameQ_erase_whereabouts s side hf i
    rw [tally_cons, harrived]
    omega
  · rw [harrived]
    exact h.distinct
  · rw [hout]
    exact h.once
  · rw [hout]
    exact h.gone
  · rw [hsame]
    exact h.unpaired m ((hsub .master).subset hm) g ((hsub .slave).subset hg)
  · rw [hout]
    exact h.old
  · rw [hout]
    exact h.new
  · rw [hsame] at hs
    rw [hout]
    exact h.marked hs
  · rintro rfl
    have hcamera : f.cameraId = a := h.camera .master f hmem
    have ht : f.ms ∈ times a s.masterFrameQ := mem_times.mpr ⟨f, hmem, hcamera, rfl⟩
    have hpairwise := h.line
    rw [pairwise_append, pairwise_append] at hpairwise
    obtain ⟨⟨-, -, hfront⟩, -, hcross⟩ := hpairwise
    refine ⟨fun t' ht' => ?_, fun t' ht' => hcross _ (mem_append_right _ ht) t' ht', ?_⟩
    · rw [hout] at ht'
      exact hfront t' ht' _ ht
    · rw [harrived]
      exact h.known _ (mem_append_left _ (mem_append_right _ ht))

/-- Frames are cleaned that are older than another. -/
theorem Matching.cleanOlder (hab : a ≠ b) (h : Matching a b n Q s hand p) (side : SyncSide)
    (base : PipeFrame) (flagSaveFrame : Bool) :
    Matching a b n Q (s.m_cleanFrameBySyncType side (some base) s.syncType flagSaveFrame) hand p := by
  refine h.cleans hab (m_cleanFrameBySyncType_cleans s side _ _ _) fun _ f hf g hg => ?_
  rw [h.syncType] at hf hg
  have hold := (mem_filter.mp hf).2
  have hyoung := (mem_filter.mp hg).2
  simp only [olderThan, decide_eq_true_eq, Bool.not_eq_true', decide_eq_false_iff_not] at hold hyoung
  omega

theorem cleanOlder_young (h : s.syncType = .timeStamp) (side : SyncSide) (base : PipeFrame)
    (flagSaveFrame : Bool) :
    ∀ g ∈ (s.m_cleanFrameBySyncType side (some base) s.syncType flagSaveFrame).frameQ side,
      base.ms ≤ g.ms := by
  intro g hg
  rw [(m_cleanFrameBySyncType_cleans s side _ _ _).stays, h] at hg
  have hyoung := (mem_filter.mp hg).2
  simp only [olderThan, Bool.not_eq_true', decide_eq_false_iff_not] at hyoung
  omega

theorem Due.cleanOlder (hab : a ≠ b) {m : PipeFrame} (hdue : Due a s p m)
    (h : Matching a b n Q s hand p) (side : SyncSide) (base : PipeFrame)
    (hbase : side = .master → base = m) (flagSaveFrame : Bool) :
    Due a (s.m_cleanFrameBySyncType side (some base) s.syncType flagSaveFrame) p m := by
  refine hdue.cleans hab h (m_cleanFrameBySyncType_cleans s side _ _ _) fun hside f hf => ?_
  rw [h.syncType, hbase hside] at hf
  have hold := (mem_filter.mp hf).2
  simp only [olderThan, decide_eq_true_eq] at hold
  omega

/-- What a pair is made of. -/
theorem makeFrame_core (s : PipeSync) (m g : PipeFrame) :
    (s.makeFrame m g).2.core = g.core ∧ ((s.makeFrame m g).1.core = m.core ∨
      (s.makeFrame m g).1.core = (m.id, m.cameraId, m.timeStampBoot, some g.asSlave)) := by
  unfold makeFrame
  split
  · unfold m_makeOneMasterFrame
    dsimp only
    split <;> split
    · exact ⟨m_setFrameState_core _ _ _, Or.inl (m_setFrameState_core _ _ _)⟩
    · split
      · exact ⟨rfl, Or.inr rfl⟩
      · exact ⟨rfl, Or.inl rfl⟩
    · exact ⟨m_setFrameState_core _ _ _, Or.inl (m_setFrameState_core _ _ _)⟩
    · split
      · exact ⟨rfl, Or.inr rfl⟩
      · exact ⟨rfl, Or.inl rfl⟩
  · exact ⟨rfl, Or.inr rfl⟩

/-- **A master frame that goes out as synchronised has its slave.** -/
theorem makeFrame_marked (hs : s.Marking) {m g : PipeFrame}
    (h : (s.makeFrame m g).1.Synchronised) : (s.makeFrame m g).1.slaveOf ≠ none := by
  unfold makeFrame at h ⊢
  split at h
  · next hone =>
    unfold m_makeOneMasterFrame at h ⊢
    dsimp only at h ⊢
    -- the second buffer of the frame says nothing of either
    generalize hr : (if g.srcBuffer < 0 then _ else _ : PipeFrame × PipeFrame) = r at h ⊢
    have hmarked : r.1.Synchronised → r.1.slaveOf ≠ none := by
      rw [← hr]
      split
      · exact fun hskipped => absurd (hone.symm.trans (hs (synchronised_m_setFrameState hskipped).1))
          (by decide)
      · split
        · exact fun _ => Option.some_ne_none _
        · next hentity => exact fun hsync => absurd hsync.2.2.2 hentity
    revert h
    split
    · exact hmarked
    · exact hmarked
  · exact Option.some_ne_none _

theorem tally_id {f' : PipeFrame} (h : f'.id = f.id) (q : List PipeFrame) (i : ℕ) :
    tally (f' :: q) i = tally (f :: q) i := by
  unfold tally
  rw [countP_cons, countP_cons, h]

theorem Matching.congr {hand' : List PipeFrame} (h : Matching a b n Q s hand p)
    (hhand : ∀ i, tally hand' i = tally hand i) : Matching a b n Q s hand' p :=
  { h with
    count := fun i => by
      rw [hhand i]
      exact h.count i }

theorem Matching.drop (h : Matching a b n Q s (f :: hand) p) :
    Matching a b n Q s hand p := by
  refine { h with count := fun i => ?_ }
  have hcount := h.count i
  rw [tally_cons] at hcount
  omega

/-- A slave frame that goes out leaves the line alone. -/
theorem pushOutput_slave (hf : f.cameraId ≠ a) (hsingle : f.slaveOf = none) :
    times a (s.pushOutput f).output.outputFrameQ = times a s.output.outputFrameQ ∧
      combined (s.pushOutput f).output.outputFrameQ = combined s.output.outputFrameQ ∧
      ∀ i, tally (s.pushOutput f).output.outputFrameQ i =
        tally s.output.outputFrameQ i + tally [f] i := by
  obtain ⟨f', hout, hcore, -⟩ := m_pushFrameToOutputQ_out s.pipeId s.output f
  have hout' : (s.pushOutput f).output.outputFrameQ = s.output.outputFrameQ ++ [f'] := hout
  have hmap : [f'].map PipeFrame.core = [f].map PipeFrame.core := by
    rw [map_singleton, map_singleton, hcore]
  rw [hout']
  refine ⟨?_, ?_, fun i => ?_⟩
  · rw [times_append, times_core hmap, times_cons_of_ne hf, times_nil, append_nil]
  · rw [combined_append, combined_core hmap, combined_eq_nil (q := [f]) (by simpa using hsingle),
      append_nil]
  · rw [tally_append, tally_core hmap]

/-- **A master frame and its slave go out**, and the master frame has its
slave. -/
theorem Matching.pairOut (hab : a ≠ b) {m g : PipeFrame} (h : Matching a b n Q s (g :: m :: hand) p)
    (hmsingle : m.slaveOf = none) (hg : g.cameraId = b) (hgsingle : g.slaveOf = none)
    (hdue : Due a s p m) (hwait : ∀ t ∈ times a s.masterFrameQ, m.ms ≤ t)
    (hQ : ∀ f : PipeFrame, f.cameraId = m.cameraId → f.ms = m.ms → Q f g.asSlave) :
    Matching a b n Q (s.pairOut m g) hand p := by
  obtain ⟨hslave, hmaster⟩ := makeFrame_core s m g
  obtain ⟨hmid, hgid⟩ := makeFrame_id s m g
  have hgcamera : (s.makeFrame m g).2.cameraId ≠ a := by
    rw [show (s.makeFrame m g).2.cameraId = g.cameraId from congrArg (fun c => c.2.1) hslave, hg]
    exact Ne.symm hab
  have hgnone : (s.makeFrame m g).2.slaveOf = none :=
    (congrArg (fun c => c.2.2.2) hslave).trans hgsingle
  have hmcore : (s.makeFrame m g).1.cameraId = m.cameraId ∧ (s.makeFrame m g).1.ms = m.ms ∧
      ∀ x, (s.makeFrame m g).1.slaveOf = some x → x = g.asSlave := by
    unfold PipeFrame.ms
    rcases hmaster with hmaster | hmaster
    · refine ⟨congrArg (fun c => c.2.1) hmaster, congrArg (fun c => c.2.2.1 / 1000000) hmaster,
        fun x hx => ?_⟩
      rw [show (s.makeFrame m g).1.slaveOf = m.slaveOf from congrArg (fun c => c.2.2.2) hmaster,
        hmsingle] at hx
      contradiction
    · refine ⟨congrArg (fun c => c.2.1) hmaster, congrArg (fun c => c.2.2.1 / 1000000) hmaster,
        fun x hx => ?_⟩
      rw [show (s.makeFrame m g).1.slaveOf = some g.asSlave from
        congrArg (fun c => c.2.2.2) hmaster] at hx
      exact (Option.some.inj hx).symm
  have hhand : Matching a b n Q s ((s.makeFrame m g).2 :: (s.makeFrame m g).1 :: hand) p := by
    refine h.congr fun i => ?_
    rw [tally_id hgid, tally_cons g, tally_cons g (m :: hand), tally_id hmid]
  have hfirst := hhand.pushOutput (fun hcamera => absurd hcamera hgcamera) (fun x hx => by
    rw [hgnone] at hx
    contradiction) fun _ hcamera => absurd hcamera hgcamera
  obtain ⟨htimes, hcombined, htally⟩ := pushOutput_slave (s := s) hgcamera hgnone
  have hfresh : g.id ∉ combined s.output.outputFrameQ := by
    intro hmem
    have hpos := h.gone g.id hmem
    have hcount := h.count g.id
    have hone : tally [g] g.id = 1 := by simp [tally]
    have hdistinct := h.distinct g.id
    rw [tally_cons] at hcount
    unfold whereabouts at hcount
    omega
  refine hfirst.pushOutput (fun _ => ⟨⟨fun t ht => ?_, fun t ht => ?_, ?_⟩, fun t ht => ?_⟩)
    (fun x hx => ⟨?_, ?_, fun f' hf' => ?_⟩) fun hs _ => makeFrame_marked (s := s) hs
  · rw [htimes] at ht
    rw [hmcore.2.1]
    exact hdue.after t ht
  · rw [hmcore.2.1]
    exact hdue.before t ht
  · rw [hmcore.2.1]
    exact hdue.known
  · rw [hmcore.2.1]
    exact hwait t ht
  · rw [hmcore.2.2 x hx, htally]
    have hone : tally [(s.makeFrame m g).2] g.id = 1 := by simp [tally, hgid]
    show 0 < _ + tally [(s.makeFrame m g).2] g.id
    omega
  · rw [hmcore.2.2 x hx, hcombined]
    exact hfresh
  · rw [hmcore.2.2 x hx]
    refine hQ f' ((congrArg (fun c => c.2.1) hf').trans hmcore.1) ?_
    exact (congrArg (fun c => c.2.2.1 / 1000000) hf').trans hmcore.2.1

/-- The master frame and the slave frame of a new frame and its pair. -/
def masterOf (side : SyncSide) (newFrame pairFrame : PipeFrame) : PipeFrame :=
  match side with
  | .master => newFrame
  | .slave => pairFrame

/-- **What is older than a pair is cleaned**, and the master frame is the
oldest then. -/
theorem Matching.clearOld (hab : a ≠ b) (h : Matching a b n Q s hand p) (side : SyncSide)
    (newFrame pairFrame : PipeFrame) (hdue : Due a s p (masterOf side newFrame pairFrame)) :
    Matching a b n Q (s.clearOld side newFrame pairFrame) hand p ∧
      Due a (s.clearOld side newFrame pairFrame) p (masterOf side newFrame pairFrame) ∧
      ∀ g ∈ (s.clearOld side newFrame pairFrame).masterFrameQ,
        (masterOf side newFrame pairFrame).ms ≤ g.ms := by
  unfold PipeSync.clearOld
  dsimp only
  generalize decide (s.output.lastFrameType = .preview ∧ side = .master) = saveMy
  generalize decide (s.output.lastFrameType = .preview ∧ side = .slave) = savePair
  have hfirst := h.cleanOlder hab side newFrame saveMy
  have hdue' := hdue.cleanOlder hab h side newFrame
    (fun hside => by rw [hside]; rfl) saveMy
  have hyoung := cleanOlder_young h.syncType side newFrame saveMy
  have hsync : (s.m_cleanFrameBySyncType side (some newFrame) s.syncType saveMy).syncType =
      s.syncType := hfirst.syncType.trans h.syncType.symm
  generalize s.m_cleanFrameBySyncType side (some newFrame) s.syncType saveMy = s' at *
  rw [← hsync]
  refine ⟨hfirst.cleanOlder hab side.other pairFrame savePair,
    hdue'.cleanOlder hab hfirst side.other pairFrame (fun hside => by
      cases side <;> first | rfl | contradiction) _,
    fun g hg => ?_⟩
  cases side with
  | master =>
    have hother := (m_cleanFrameBySyncType_cleans s' .slave (some pairFrame) s'.syncType
      savePair).other
    exact hyoung g ((congrArg (g ∈ ·) hother).mp hg)
  | slave => exact cleanOlder_young hfirst.syncType .master pairFrame savePair g hg

/-- **A new frame and its pair go out.** -/
theorem Matching.syncWith (hab : a ≠ b) (side : SyncSide) {pairFrame : PipeFrame}
    (h : Matching a b n Q s (pairFrame :: newFrame :: hand) p) (hnew : InHand a b s side newFrame)
    (hpair : InHand a b s side.other pairFrame)
    (hdue : Due a s p (masterOf side newFrame pairFrame))
    (hQ : ∀ f : PipeFrame, f.cameraId = a → f.ms = (masterOf side newFrame pairFrame).ms →
      Q f (masterOf side pairFrame newFrame).asSlave) :
    Matching a b n Q (s.syncWith side newFrame pairFrame) hand p := by
  obtain ⟨hclear, hdue', hyoung⟩ := h.clearOld hab side newFrame pairFrame hdue
  have hwait : ∀ t ∈ times a (s.clearOld side newFrame pairFrame).masterFrameQ,
      (masterOf side newFrame pairFrame).ms ≤ t := by
    intro t ht
    obtain ⟨g, hg, -, rfl⟩ := mem_times.mp ht
    exact hyoung g hg
  cases side with
  | master =>
    refine hclear.pairOut hab hnew.single hpair.camera hpair.single hdue' hwait fun f hf => ?_
    exact hQ f (hf.trans hnew.camera)
  | slave =>
    refine Matching.pairOut hab (hclear.congr fun i => ?_) hpair.single hnew.camera hnew.single
      hdue' hwait fun f hf => ?_
    · exact tally_perm (List.Perm.swap _ _ _) i
    · exact hQ f (hf.trans hpair.camera)

theorem min_le_syncCalbTime (s : PipeSync) (hwSync : Bool) (i j : ℤ) :
    min s.syncTimestampMinCalbTime s.syncTimestampMaxCalbTime ≤ s.syncCalbTime hwSync i j := by
  unfold syncCalbTime
  split <;> omega

theorem syncCalbTime_comm (s : PipeSync) (hwSync : Bool) (i j : ℤ) :
    s.syncCalbTime hwSync i j = s.syncCalbTime hwSync j i :=
  if_congr (and_congr Iff.rfl and_comm) rfl rfl

theorem diffMs_comm (t t' : ℕ) : diffMs t t' = diffMs t' t := Nat.add_comm _ _

/-- A master frame and its slave, within the calibration time. -/
def Within (a b : ℤ) (s : PipeSync) (hwSync : Bool) (f : PipeFrame) (g : SlaveOf) : Prop :=
  f.cameraId = a ∧ (∃ slave ∈ s.popped, slave.cameraId = b ∧ slave.asSlave = g) ∧
    diffMs f.ms g.ms ≤ s.syncCalbTime hwSync a b

theorem Within.of_fixed {g : SlaveOf} (h : Within a b s hwSync f g) (hfixed : s'.fixed = s.fixed) :
    Within a b s' hwSync f g := by
  have hpopped : s'.popped = s.popped := congrArg (fun t => t.1.2.2.1) hfixed
  have hmin : s'.syncTimestampMinCalbTime = s.syncTimestampMinCalbTime :=
    congrArg (fun t => t.2.1) hfixed
  have hmax : s'.syncTimestampMaxCalbTime = s.syncTimestampMaxCalbTime :=
    congrArg (fun t => t.2.2.1) hfixed
  have hneed : s'.needMaxCalbTime = s.needMaxCalbTime := congrArg (fun t => t.2.2.2) hfixed
  unfold Within syncCalbTime at *
  rw [hpopped, hmin, hmax, hneed]
  exact h

/-- **A new frame is matched, or it waits.** -/
theorem Matching.m_syncFrame (hab : a ≠ b) (hside : FrameType.side newFrame.frameType = side)
    (h : Matching a b n Q s (newFrame :: hand) p) (hnew : InHand a b s side newFrame)
    (hline : newFrame.cameraId = a →
      Due a s p newFrame ∧ ∀ t ∈ times a s.masterFrameQ, t ≤ newFrame.ms)
    (hQ : ∀ f g, Within a b s hwSync f g → Q f g) :
    Matching a b n Q (s.m_syncFrame hwSync newFrame) hand p := by
  unfold PipeSync.m_syncFrame
  dsimp only
  rw [hside]
  split
  · rename_i hnone
    refine h.wait hab hnew hline fun g hg => ?_
    have hfar := find?_eq_none.mp hnone g hg
    simp only [iamFound, h.syncType, decide_eq_true_eq, Nat.not_le] at hfar
    exact Nat.lt_of_le_of_lt (min_le_syncCalbTime s hwSync _ _) hfar
  · rename_i pairFrame hfind
    obtain ⟨htake, hpair, hduePair⟩ := h.takePair hfind
    have hnear := find?_some hfind
    simp only [iamFound, h.syncType, decide_eq_true_eq] at hnear
    have hsame := SameBeside.setFrameQ s side.other
      ((s.frameQ side.other).eraseP (s.iamFound hwSync newFrame))
    have hpopped : (s.setFrameQ side.other ((s.frameQ side.other).eraseP
        (s.iamFound hwSync newFrame))).popped = s.popped :=
      congrArg (fun t => t.2.2.1) hsame.traffic
    refine htake.syncWith hab side ⟨hnew.camera, hpopped ▸ hnew.popped, hnew.single⟩
      ⟨hpair.camera, hpopped ▸ hpair.popped, hpair.single⟩ ?_ fun f hf hms => ?_
    · cases side with
      | master =>
        obtain ⟨hdue, -⟩ := hline hnew.camera
        exact ⟨hdue.after, hdue.before, hdue.known⟩
      | slave => exact hduePair rfl
    · refine hQ f _ ⟨hf, ?_, ?_⟩
      · cases side with
        | master => exact ⟨pairFrame, hpair.popped, hpair.camera, rfl⟩
        | slave => exact ⟨newFrame, hnew.popped, hnew.camera, rfl⟩
      · rw [hms]
        cases side with
        | master =>
          rw [hnew.camera, hpair.camera] at hnear
          exact hnear
        | slave =>
          rw [hnew.camera, hpair.camera, syncCalbTime_comm, diffMs_comm] at hnear
          exact hnear

/-- A frame with nothing in it goes out, behind what is older. -/
theorem Matching.passThrough (hab : a ≠ b) (h : Matching a b n Q s (newFrame :: hand) p)
    (hsingle : newFrame.slaveOf = none) (hinvalid : isInvalid newFrame = true)
    (hline : newFrame.cameraId = a → Due a s p newFrame) :
    Matching a b n Q (s.passThrough newFrame) hand p := by
  have hslave := h.cleanOlder hab .slave newFrame false
  have hmaster := hslave.cleanOlder hab .master newFrame false
  refine hmaster.pushOutput (fun hcamera => ⟨?_, fun t ht => ?_⟩) (fun g hg => ?_) fun _ _ hsync =>
    absurd (hinvalid.symm.trans hsync.2.1) (by decide)
  · have hdue := (hline hcamera).cleanOlder hab h .slave newFrame
      (fun _ => rfl) false
    exact hdue.cleanOlder hab hslave .master newFrame (fun _ => rfl) false
  · obtain ⟨g, hg, -, rfl⟩ := mem_times.mp ht
    exact cleanOlder_young hslave.syncType .master newFrame false g hg
  · rw [hsingle] at hg
    contradiction

/-- The first frames of the master are its oldest. -/
theorem Matching.take_le_drop (h : Matching a b n Q s hand p) (k : ℕ) :
    ∀ f ∈ s.masterFrameQ.take k, ∀ g ∈ s.masterFrameQ.drop k, f.ms ≤ g.ms := by
  have hline := h.line
  rw [pairwise_append, pairwise_append] at hline
  have hsorted := hline.1.2.1
  have hall : s.masterFrameQ.filter (fun f => decide (f.cameraId = a)) = s.masterFrameQ :=
    filter_eq_self.mpr fun f hf => decide_eq_true (h.camera .master f hf)
  unfold times at hsorted
  rw [hall, pairwise_map, ← take_append_drop k s.masterFrameQ, pairwise_append] at hsorted
  exact hsorted.2.2

theorem Matching.cleanByCount (hab : a ≠ b) (h : Matching a b n Q s hand p) (count : ℤ) :
    Matching a b n Q (s.cleanByCount count) hand p := by
  obtain ⟨k, hslave⟩ := m_cleanFrameByMinCount_cleans s .slave count
  obtain ⟨l, hmaster⟩ := m_cleanFrameByMinCount_cleans (s.m_cleanFrameByMinCount .slave count)
    .master count
  have hfirst := h.cleans hab hslave fun hside => by contradiction
  exact hfirst.cleans hab hmaster fun _ => hfirst.take_le_drop l

theorem Matching.cleanByAge (hab : a ≠ b) (h : Matching a b n Q s hand p) (t : ℕ) :
    Matching a b n Q (s.cleanByAge t) hand p := by
  unfold PipeSync.cleanByAge
  split
  · exact h
  · have hfirst := h.cleans hab (m_cleanFrameByTimeStamp_cleans s .slave t)
      fun hside => by contradiction
    refine hfirst.cleans hab (m_cleanFrameByTimeStamp_cleans _ .master t) fun _ f hf g hg => ?_
    have hold := (mem_filter.mp hf).2
    have hyoung := (mem_filter.mp hg).2
    simp only [decide_eq_true_eq, Bool.not_eq_true', decide_eq_false_iff_not] at hold hyoung
    omega

theorem Matching.cleanOld (hab : a ≠ b) (h : Matching a b n Q s hand p) (newFrame : PipeFrame) :
    Matching a b n Q (s.cleanOld newFrame) hand p := by
  have hkeep : Matching a b n Q s.keepSyncCount hand p := by
    unfold keepSyncCount
    split
    · exact h
    · exact { h with }
  have hclean := (hkeep.cleanByCount hab (s.waitingCount newFrame)).cleanByAge hab
    (newFrame.ms - syncRemoveTimestampDiff)
  exact { hclean with }

/-- A frame of a pair comes to `m_syncFrame`. -/
theorem runByType_sync (s : PipeSync) (hwSync : Bool) (hside : newFrame.syncSide = some side) :
    FrameType.side newFrame.frameType = side ∧
      (s.runByType hwSync newFrame = s.m_syncFrame hwSync newFrame ∨
        s.runByType hwSync newFrame = (s.markMultiFrame newFrame).m_syncFrame hwSync newFrame) := by
  unfold PipeFrame.syncSide at hside
  unfold runByType
  cases htype : newFrame.frameType <;> rw [htype] at hside <;> dsimp only at hside ⊢
  case previewDualMaster | reprocessingDualMaster | previewDualSlave | reprocessingDualSlave =>
    exact ⟨Option.some.inj hside, Or.inl rfl⟩
  case internal | internalSlave =>
    split at hside
    · rename_i hmode
      rw [hmode]
      exact ⟨Option.some.inj hside, Or.inr rfl⟩
    · contradiction
  all_goals contradiction

/-- The frame goes through, or it is matched. -/
theorem Matching.runTaken (hab : a ≠ b) (hside : newFrame.syncSide = some side)
    (h : Matching a b n Q s (newFrame :: hand) p) (hnew : InHand a b s side newFrame)
    (hline : newFrame.cameraId = a →
      Due a s p newFrame ∧ ∀ t ∈ times a s.masterFrameQ, t ≤ newFrame.ms)
    (hQ : ∀ f g, Within a b s hwSync f g → Q f g) :
    Matching a b n Q ((s.runByType hwSync newFrame).changeSyncCount newFrame) hand p := by
  obtain ⟨htype, hrun⟩ := runByType_sync s hwSync hside
  have hmulti : Matching a b n Q ((s.markMultiFrame newFrame).m_syncFrame hwSync newFrame) hand p := by
    unfold markMultiFrame
    repeat' split
    all_goals
      exact Matching.m_syncFrame hab htype { h with } { hnew with }
        (fun hcamera => ⟨{ (hline hcamera).1 with }, (hline hcamera).2⟩) hQ
  have hmatched : Matching a b n Q (s.runByType hwSync newFrame) hand p := by
    rcases hrun with hrun | hrun
    · rw [hrun]
      exact h.m_syncFrame hab htype hnew hline hQ
    · rw [hrun]
      exact hmulti
  unfold changeSyncCount
  repeat' split
  all_goals exact { hmatched with }

/-- **A frame that is to be matched**, when `m_run` has it. -/
theorem Matching.runFrame (hab : a ≠ b) (hside : newFrame.syncSide = some side)
    (h : Matching a b n Q s (newFrame :: hand) p) (hnew : InHand a b s side newFrame)
    (hline : newFrame.cameraId = a →
      Due a s p newFrame ∧ ∀ t ∈ times a s.masterFrameQ, t ≤ newFrame.ms)
    (hQ : ∀ f g, Within a b (s.selectCalbTime hwSync newFrame) hwSync f g → Q f g) :
    Matching a b n Q (s.runFrame hwSync newFrame) hand p := by
  unfold PipeSync.runFrame
  split
  · exact h.drop
  · have hselect : Matching a b n Q (s.selectCalbTime hwSync newFrame) (newFrame :: hand) p ∧
        InHand a b (s.selectCalbTime hwSync newFrame) side newFrame ∧
        (newFrame.cameraId = a → Due a (s.selectCalbTime hwSync newFrame) p newFrame ∧
          ∀ t ∈ times a (s.selectCalbTime hwSync newFrame).masterFrameQ, t ≤ newFrame.ms) := by
      unfold selectCalbTime
      split
      · exact ⟨{ h with }, { hnew with },
          fun hcamera => ⟨{ (hline hcamera).1 with }, (hline hcamera).2⟩⟩
      · exact ⟨h, hnew, hline⟩
    obtain ⟨hs, hnew', hline'⟩ := hselect
    refine Matching.cleanOld hab ?_ newFrame
    split
    · next hinvalid =>
      have hcore := m_setFrameState_core (s.selectCalbTime hwSync newFrame).pipeId newFrame .skipped
      have hskipped : isInvalid (m_setFrameState (s.selectCalbTime hwSync newFrame).pipeId newFrame
          .skipped) = true := by
        unfold m_setFrameState
        split
        · exact hinvalid
        · rfl
      generalize m_setFrameState (s.selectCalbTime hwSync newFrame).pipeId newFrame .skipped =
        skipped at hcore hskipped ⊢
      have hms : skipped.ms = newFrame.ms := congrArg (fun c => c.2.2.1 / 1000000) hcore
      have hhand := hs.congr fun i => tally_id (congrArg Prod.fst hcore) hand i
      refine hhand.passThrough hab ((congrArg (fun c => c.2.2.2) hcore).trans hnew.single)
        hskipped fun hcamera => ?_
      have hdue := (hline' ((congrArg (fun c => c.2.1) hcore).symm.trans hcamera)).1
      refine ⟨fun t ht => ?_, fun t ht => ?_, ?_⟩
      · rw [hms]
        exact hdue.after t ht
      · rw [hms]
        exact hdue.before t ht
      · rw [hms]
        exact hdue.known
    · exact hs.runTaken hab hside hnew' hline' hQ

/-! ## Over a run -/

/-- **The streams of the two cameras**: a frame that comes is a SYNC frame of
the master, from camera `a`, or of the slave, from `b`, of which there is no
other, and younger than those of its camera before it. -/
def Streams (a b : ℤ) (s : PipeSync) : SyncEvent → Prop
  | .push f =>
      (∃ side, f.syncSide = some side ∧ f.cameraId = side.camera a b) ∧ f.slaveOf = none ∧
        (∀ g ∈ s.arrived, g.id ≠ f.id) ∧
        ∀ g ∈ s.arrived, g.cameraId = f.cameraId → g.timeStampBoot < f.timeStampBoot
  | _ => True

/-- The invariant of a run. -/
structure Ready (a b : ℤ) (s : PipeSync) : Prop where
  matching : ∀ Q, Matching a b s.output.outputFrameQ.length Q s [] s.inputFrameQ
  coming : ∀ f ∈ s.inputFrameQ,
    (∃ side, f.syncSide = some side ∧ f.cameraId = side.camera a b) ∧ f.slaveOf = none

theorem Matching.rebase (h : Matching a b n Q s hand p) (Q' : PipeFrame → SlaveOf → Prop) :
    Matching a b s.output.outputFrameQ.length Q' s hand p :=
  { h with
    old := Nat.le_refl _
    new := fun f hf => by
      rw [drop_length] at hf
      contradiction }

/-- **A frame comes.** -/
theorem Ready.push (h : Ready a b s) (hf : s.Streams a b (.push f)) :
    Ready a b (s.step (.push f)) := by
  obtain ⟨hside, hsingle, hfresh, hyoung⟩ := hf
  refine ⟨fun Q => ?_, fun g hg => ?_⟩
  · have hs := h.matching Q
    have hold : ∀ t ∈ times a s.arrived, f.cameraId = a → t ≤ f.ms := by
      intro t ht hcamera
      obtain ⟨g, hg, hgcamera, rfl⟩ := mem_times.mp ht
      have hlt := hyoung g hg (hgcamera.trans hcamera.symm)
      exact Nat.div_le_div_right (Nat.le_of_lt hlt)
    have hsplit : times a [f] = [] ∨ (f.cameraId = a ∧ times a [f] = [f.ms]) := by
      by_cases hcamera : f.cameraId = a
      · exact Or.inr ⟨hcamera, times_cons_of_eq hcamera []⟩
      · exact Or.inl (times_cons_of_ne hcamera [])
    refine { hs with line := ?_, known := fun t ht => ?_, count := fun i => ?_, distinct := fun i => ?_ }
    · show (_ ++ times a (s.inputFrameQ ++ [f])).Pairwise _
      rw [times_append, ← append_assoc, pairwise_append]
      refine ⟨hs.line, ?_, fun x hx y hy => ?_⟩
      · rcases hsplit with hnil | ⟨-, hone⟩
        · rw [hnil]
          exact List.Pairwise.nil
        · rw [hone]
          exact pairwise_singleton _ _
      · rcases hsplit with hnil | ⟨hcamera, hone⟩
        · rw [hnil] at hy
          contradiction
        · rw [hone] at hy
          rw [mem_singleton.mp hy]
          exact hold x (hs.known x hx) hcamera
    · show t ∈ times a (s.arrived ++ [f])
      have ht' : t ∈ times a s.output.outputFrameQ ++ times a s.masterFrameQ ++
          times a (s.inputFrameQ ++ [f]) := ht
      rw [times_append, ← append_assoc] at ht'
      rw [times_append]
      rcases mem_append.mp ht' with ht' | ht'
      · exact mem_append_left _ (hs.known t ht')
      · exact mem_append_right _ ht'
    · show s.whereabouts i + tally [] i + tally (s.inputFrameQ ++ [f]) i ≤ tally (s.arrived ++ [f]) i
      have hcount := hs.count i
      rw [tally_append, tally_append]
      omega
    · show tally (s.arrived ++ [f]) i ≤ 1
      have hdistinct := hs.distinct i
      rw [tally_append]
      by_cases hi : f.id = i
      · have hnone : tally s.arrived i = 0 :=
          countP_eq_zero.mpr fun g hg => by simpa [← hi] using hfresh g hg
        have hone : tally [f] i = 1 := by simp [tally, hi]
        omega
      · have hnone : tally [f] i = 0 := by simp [tally, hi]
        omega
  · rcases mem_append.mp hg with hg | hg
    · exact h.coming g hg
    · rw [mem_singleton.mp hg]
      exact ⟨hside, hsingle⟩

/-- **What is new in the output has its slave within the calibration time.** -/
def PairsWithin (a b : ℤ) (s : PipeSync) (e : SyncEvent) : Prop :=
  ∀ f ∈ (s.step e).output.outputFrameQ.drop s.output.outputFrameQ.length, ∀ g,
    f.slaveOf = some g → ∃ hwSync, e = .run hwSync ∧ Within a b (s.step e) hwSync f g

/-- **`m_run`.** -/
theorem Ready.run (hab : a ≠ b) (h : Ready a b s) (hwSync : Bool) :
    Ready a b (s.step (.run hwSync)) ∧ PairsWithin a b s (.run hwSync) := by
  show Ready a b (s.m_run hwSync) ∧ _
  unfold PairsWithin
  show _ ∧ ∀ f ∈ (s.m_run hwSync).output.outputFrameQ.drop _, ∀ g, f.slaveOf = some g →
    ∃ hwSync', SyncEvent.run hwSync = .run hwSync' ∧ Within a b (s.m_run hwSync) hwSync' f g
  unfold m_run
  split
  · exact ⟨h, fun f hf => by rw [drop_length] at hf; contradiction⟩
  · rename_i newFrame rest hqueue
    obtain ⟨⟨side, hside, hcamera⟩, hsingle⟩ :=
      h.coming newFrame (hqueue ▸ mem_cons_self)
    have hcoming : ∀ f ∈ rest, (∃ side, f.syncSide = some side ∧ f.cameraId = side.camera a b) ∧
        f.slaveOf = none := fun f hf => h.coming f (hqueue ▸ mem_cons_of_mem _ hf)
    have hpending : ∀ Q, Matching a b s.output.outputFrameQ.length Q
        { s with inputFrameQ := rest, popped := s.popped ++ [newFrame] } [] (newFrame :: rest) := by
      intro Q
      have hs := h.matching Q
      rw [hqueue] at hs
      exact { hs with popped := fun side g hg => mem_append_left _ (hs.popped side g hg) }
    have hpopped : newFrame ∈ s.popped ++ [newFrame] :=
      mem_append_right _ (mem_singleton_self _)
    generalize hstart : { s with inputFrameQ := rest, popped := s.popped ++ [newFrame] } = s₁
      at hpending ⊢
    have hinput : (s₁.runFrame hwSync newFrame).inputFrameQ = rest := by
      rw [show (s₁.runFrame hwSync newFrame).inputFrameQ = s₁.inputFrameQ from
        congrArg Prod.fst (runFrame_traffic s₁ hwSync newFrame), ← hstart]
    have hhand : InHand a b s₁ side newFrame := ⟨hcamera, by rw [← hstart]; exact hpopped, hsingle⟩
    have hready : ∀ {Q}, Matching a b s.output.outputFrameQ.length Q
        (s₁.runFrame hwSync newFrame) [] rest → Ready a b (s₁.runFrame hwSync newFrame) := by
      intro Q hmatching
      refine ⟨fun Q' => ?_, fun f hf => hcoming f (hinput ▸ hf)⟩
      rw [hinput]
      exact hmatching.rebase Q'
    by_cases hvalid : newFrame.cameraId < 0 ∨ newFrame.cameraId ≥ cameraIdMax
    · have hsame : s₁.runFrame hwSync newFrame = s₁ := by
        unfold PipeSync.runFrame
        rw [if_pos hvalid]
      have hmatching : Matching a b s.output.outputFrameQ.length (fun _ _ => True)
          (s₁.runFrame hwSync newFrame) [] rest := by
        rw [hsame]
        exact (hpending _).take.1.drop
      refine ⟨hready hmatching, fun f hf => ?_⟩
      rw [hsame, ← hstart, drop_length] at hf
      contradiction
    · have hfixed := runFrame_fixed s₁ hwSync hvalid
      have hmatching : Matching a b s.output.outputFrameQ.length
          (Within a b (s₁.runFrame hwSync newFrame) hwSync)
          (s₁.runFrame hwSync newFrame) [] rest := by
        obtain ⟨htake, hline⟩ := (hpending _).take
        exact htake.runFrame hab hside hhand hline fun f g hwithin => hwithin.of_fixed hfixed
      exact ⟨hready hmatching, fun f hf g hg => ⟨hwSync, rfl, hmatching.new f hf g hg⟩⟩

/-- Nothing more is to come. -/
theorem Matching.cut (h : Matching a b n Q s hand p) : Matching a b n Q s hand [] := by
  have hsub : (times a s.output.outputFrameQ ++ times a s.masterFrameQ ++ times a []).Sublist
      (times a s.output.outputFrameQ ++ times a s.masterFrameQ ++ times a p) :=
    (List.Sublist.refl _).append (nil_sublist _)
  refine { h with
    line := h.line.sublist hsub
    known := fun t ht => h.known t (hsub.subset ht)
    count := fun i => ?_ }
  have hcount := h.count i
  rw [tally_nil]
  omega

/-- **All that waits goes out.** -/
theorem Ready.cleanAll (hab : a ≠ b) (h : Ready a b s) :
    Ready a b s.cleanAll ∧ ∀ f ∈ s.cleanAll.output.outputFrameQ.drop s.output.outputFrameQ.length,
      ∀ g, f.slaveOf = some g → False := by
  have hinput : s.cleanAll.inputFrameQ = s.inputFrameQ :=
    congrArg (fun t => t.1.1) (cleanByCount_fixed s 0)
  have hclean : ∀ Q, Matching a b s.output.outputFrameQ.length Q s.cleanAll [] s.inputFrameQ :=
    fun Q => (h.matching Q).cleanByCount hab 0
  refine ⟨⟨fun Q => ?_, fun f hf => h.coming f (hinput ▸ hf)⟩, (hclean fun _ _ => False).new⟩
  rw [hinput]
  exact (hclean Q).rebase Q

/-- **A step keeps the invariant.** -/
theorem Ready.step (hab : a ≠ b) (h : Ready a b s) {e : SyncEvent} (he : s.Streams a b e) :
    Ready a b (s.step e) ∧ PairsWithin a b s e := by
  have hnothing : ∀ {P : PipeFrame → Prop},
      ∀ f ∈ s.output.outputFrameQ.drop s.output.outputFrameQ.length, P f := by
    intro P f hf
    rw [drop_length] at hf
    contradiction
  cases e with
  | push f => exact ⟨h.push he, hnothing⟩
  | run hwSync => exact h.run hab hwSync
  | timeOut mode =>
    obtain ⟨hclean, hnew⟩ := h.cleanAll hab
    unfold PairsWithin
    show Ready a b (s.runTimedOut mode) ∧
      ∀ f ∈ (s.runTimedOut mode).output.outputFrameQ.drop _, ∀ g, f.slaveOf = some g →
        ∃ hwSync, _ ∧ Within a b (s.runTimedOut mode) hwSync f g
    unfold runTimedOut
    split
    · exact ⟨h, hnothing⟩
    · split
      · exact ⟨h, hnothing⟩
      · exact ⟨hclean, fun f hf g hg => (hnew f hf g hg).elim⟩
  | start minFps maxFps =>
    obtain ⟨hclean, hnew⟩ := h.cleanAll hab
    refine ⟨⟨fun Q => ?_, hclean.coming⟩, fun f hf g hg => (hnew f hf g hg).elim⟩
    refine { hclean.matching Q with unpaired := fun m hm => ?_ }
    rw [show (s.step (.start minFps maxFps)).masterFrameQ = [] from (cleanAll_empty s).1] at hm
    contradiction
  | stop =>
    have hcut : Ready a b { s with inputFrameQ := [], released := s.released ++ s.inputFrameQ } :=
      ⟨fun Q => { (h.matching Q).cut with }, fun f hf => by contradiction⟩
    obtain ⟨hclean, hnew⟩ := hcut.cleanAll hab
    refine ⟨⟨fun Q => ?_, hclean.coming⟩, fun f hf g hg => (hnew f hf g hg).elim⟩
    refine { hclean.matching Q with unpaired := fun m hm => ?_ }
    rw [show (s.step .stop).masterFrameQ = [] from (cleanAll_empty _).1] at hm
    contradiction

/-- **What holds of the pairs**: a master frame that goes out as synchronised has
a slave frame, no slave frame is combined twice, the master's frames go out in
the order of their time, and of those that wait no two are within both
calibration times. -/
structure Matched (a : ℤ) (s : PipeSync) : Prop where
  marked : s.Marking → ∀ f ∈ s.output.outputFrameQ, f.cameraId = a → f.Synchronised →
    f.slaveOf ≠ none
  once : (combined s.output.outputFrameQ).Nodup
  ordered : (times a s.output.outputFrameQ).Pairwise (· ≤ ·)
  unpaired : ∀ m ∈ s.masterFrameQ, ∀ g ∈ s.slaveFrameQ,
    min s.syncTimestampMinCalbTime s.syncTimestampMaxCalbTime < diffMs m.ms g.ms

/-- **The pipe pairs the frames of two cameras**, over every run in which
their streams come, in whatever order: each pair that goes out is of a master
frame and a slave frame within the calibration time of the two cameras, as it
is selected when the second of them comes; and the rest of `Matched`. -/
theorem frames_paired (hab : a ≠ b) (pipeId : SyncPipeId) (reprocessing : Bool)
    (makeFrameType : MakeFrameType) (events : List SyncEvent)
    (h : Run.Throughout PipeSync.step (Streams a b)
      (initial pipeId reprocessing makeFrameType .timeStamp) events) :
    Run.Always PipeSync.step (Matched a)
        (initial pipeId reprocessing makeFrameType .timeStamp) events ∧
      Run.Throughout PipeSync.step (PairsWithin a b)
        (initial pipeId reprocessing makeFrameType .timeStamp) events := by
  have hready : Ready a b (initial pipeId reprocessing makeFrameType .timeStamp) := by
    have hempty : ∀ side, ∀ g : PipeFrame,
        g ∉ (initial pipeId reprocessing makeFrameType .timeStamp).frameQ side := by
      intro side g
      cases side <;> exact not_mem_nil
    exact ⟨fun Q => ⟨rfl, List.Pairwise.nil, fun t ht => by contradiction,
      fun side g hg => absurd hg (hempty side g), fun side g hg => absurd hg (hempty side g),
      fun side g hg => absurd hg (hempty side g), fun i => Nat.le_refl 0, fun i => Nat.zero_le 1,
      List.Pairwise.nil, fun i hi => by contradiction, fun m hm => by contradiction,
      Nat.le_refl 0, fun f hf => by contradiction, fun _ f hf => by contradiction⟩,
      fun f hf => by contradiction⟩
  constructor
  · refine (Run.Always.of_invariant (fun s e hs he => (hs.step hab he).1) hready h).mono
      fun s hs => ?_
    have hmatching := hs.matching fun _ _ => True
    have hline := hmatching.line
    rw [append_assoc, pairwise_append] at hline
    exact ⟨hmatching.marked, hmatching.once, hline.1, hmatching.unpaired⟩
  · exact Run.Throughout.of_invariant (fun s e hs he => (hs.step hab he).1)
      (fun s e hs he => (hs.step hab he).2) hready h

instance (s : PipeSync) : (e : SyncEvent) → Decidable (s.Streams a b e)
  | .push f =>
      have : Decidable (∃ side, f.syncSide = some side ∧ f.cameraId = side.camera a b) :=
        match hside : f.syncSide with
        | none => isFalse fun h => by obtain ⟨side, hs, -⟩ := h; contradiction
        | some side => decidable_of_iff (f.cameraId = side.camera a b)
            ⟨fun h => ⟨side, rfl, h⟩, fun ⟨side', hs, hc⟩ => Option.some.inj hs ▸ hc⟩
      inferInstanceAs (Decidable (_ ∧ _ ∧ _ ∧ _))
  | .run _ | .timeOut _ | .start _ _ | .stop => isTrue trivial

/-- A frame of a pair, at a time in microseconds. -/
def frameOf (id : ℕ) (side : SyncSide) (frameState : FrameState) (time : ℕ) : PipeFrame where
  id := id
  cameraId := side.camera 0 2
  frameType := match side with
    | .master => .previewDualMaster
    | .slave => .previewDualSlave
  frameState := frameState
  dualOperationMode := .sync
  frameCount := id
  timeStampBoot := time * 1000
  maxFrameIndex := 0
  srcBuffer := 3
  srcBuffer2 := -1
  srcBufferError := false
  hwfcRequest := false
  dstEntity := true
  dstBuffer := none
  dstBuffer2 := none
  slaveOf := none

/-- Frames that come one after the other. -/
def inTurn (frames : List PipeFrame) : List SyncEvent :=
  frames.flatMap fun f => [.push f, .run false]

/-- The cameras slow down: the last frame selects the longer calibration time,
behind which the two before it are a pair. -/
def slowingDown : List SyncEvent :=
  .start 10 30 :: inTurn [frameOf 1 .master .running 1000000, frameOf 2 .slave .running 1000000,
    frameOf 3 .master .running 1033000, frameOf 4 .slave .running 1053000,
    frameOf 5 .master .running 1110000]

/-- Two frames of the master within a millisecond, of which the second has
nothing in it. -/
def withinMillisecond : List SyncEvent :=
  .start 30 30 :: inTurn [frameOf 1 .master .running 1000200, frameOf 2 .master .skipped 1000400] ++
    [.stop]

theorem frames_paired_slowingDown :
    Run.Always PipeSync.step (Matched 0) (initial .sync false .oneMaster .timeStamp) slowingDown ∧
      Run.Throughout PipeSync.step (PairsWithin 0 2)
        (initial .sync false .oneMaster .timeStamp) slowingDown :=
  frames_paired (by decide) .sync false .oneMaster slowingDown (by decide +kernel)

/-- **A pair may be left unpaired**, within the calibration time that was
selected behind it, and frames may go out of order within a millisecond. -/
theorem not_frames_paired :
    (Run.Throughout PipeSync.step (Streams 0 2) (create .sync false .oneMaster) slowingDown ∧
      ¬ Run.Always PipeSync.step (fun s => ∀ m ∈ s.masterFrameQ, ∀ g ∈ s.slaveFrameQ,
          s.syncCalbTime false m.cameraId g.cameraId < diffMs m.ms g.ms)
        (create .sync false .oneMaster) slowingDown) ∧
      Run.Throughout PipeSync.step (Streams 0 2) (create .sync false .oneMaster) withinMillisecond ∧
        ¬ Run.Always PipeSync.step (fun s => (s.output.outputFrameQ.filter fun f =>
            f.cameraId = 0).Pairwise fun f g => f.timeStampBoot < g.timeStampBoot)
          (create .sync false .oneMaster) withinMillisecond := by
  refine ⟨⟨by decide +kernel, fun h => ?_⟩, by decide +kernel, fun h => ?_⟩
  · exact absurd h.last (by decide +kernel)
  · exact absurd h.last (by decide +kernel)

end PipeSync

end ExynosVendor.Camera
