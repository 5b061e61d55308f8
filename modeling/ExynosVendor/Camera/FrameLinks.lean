import ExynosVendor.Camera.FrameEntity

/-!
# How a frame is linked

A frame is built from new entities with pipes of their own, each a sibling or a child of one
that is there already. Whatever the order, the entities are then in chains that share none
(`Links`), and all of them are ready (`Built.links`, `Built.ready`). The states change
nothing about the chains, and a pipe finds its one entity (`Links.search_eq`).
-/

namespace ExynosVendor.Camera.FrameEntity

open Linked
open List Option

/-- No entity of the frame has the pipe. -/
def Frame.NewPipe (f : Frame) (pipeId : ℕ) : Prop := ∀ a e, f.entity a = some e → e.pipeId ≠ pipeId

/-- **How a frame is built**: from new entities with new pipes, siblings or children of an
entity of the frame. The number of pipes and the results to be told may be set at any time. -/
inductive Built : Frame → Prop where
  | init (maxPipeNum : ℕ) : Built (Frame.init maxPipeNum)
  | request {f : Frame} (num : ℕ) (hf : Built f) : Built (f.setNumRequestPipe num)
  | results {f : Frame} (pipes : ResultUpdateType → ℕ)
      (statuses : ResultUpdateType → ResultUpdateStatus) (hf : Built f) :
      Built { f with resultUpdatePipeId := pipes, resultUpdateStatus := statuses }
  | sibling {f : Frame} (pipeId : ℕ) (hf : Built f) (hpipe : f.NewPipe pipeId) :
      Built ((f.newEntity pipeId).1.addSiblingEntity (f.newEntity pipeId).2)
  | child {f f' : Frame} {parent : ℕ} {e : Entity} (pipeId : ℕ) (hf : Built f)
      (hpipe : f.NewPipe pipeId) (hparent : f.entity parent = some e)
      (hadd : (f.newEntity pipeId).1.addChildEntity parent (f.newEntity pipeId).2 =
        some (f', .noError)) : Built f'
  | childOf {f f' : Frame} {parent : ℕ} {e : Entity} (pipeId : ℕ) (parentPipeId : ℤ)
      (hf : Built f) (hpipe : f.NewPipe pipeId) (hparent : f.entity parent = some e)
      (hadd : (f.newEntity pipeId).1.addChildEntityOf parent (f.newEntity pipeId).2 parentPipeId =
        some (f', .noError)) : Built f'

/-- **The chains of a frame**: they share no entity, every entity is in one of them, none is
empty, and no two entities have one pipe. -/
structure Links (f : Frame) (chains : List (List ℕ)) : Prop where
  linked : Chains Entity.nextEntity f.heap f.linkageList chains
  distinct : chains.flatten.Nodup
  all : ∀ a e, f.entity a = some e → a ∈ chains.flatten
  nonempty : ∀ l ∈ chains, l ≠ []
  pipes : ∀ a b e e', f.entity a = some e → f.entity b = some e' → e.pipeId = e'.pipeId → a = b

variable {f f' : Frame} {chains : List (List ℕ)} {a : ℕ} {e : Entity}

theorem Links.live (h : Links f chains) (ha : a ∈ chains.flatten) :
    ∃ e, f.entity a = some e := h.linked.live ha

theorem Links.lt (h : Links f chains) (ha : a ∈ chains.flatten) : a < f.heap.length := by
  obtain ⟨e, he⟩ := h.live ha
  exact lt_of_read he

theorem Links.length_le (h : Links f chains) : chains.flatten.length ≤ f.heap.length := by
  have hsub : chains.flatten ⊆ List.range f.heap.length := fun a ha =>
    mem_range.mpr (h.lt ha)
  have hle := (subperm_of_subset h.distinct hsub).length_le
  rwa [length_range] at hle

theorem Links.newEntity_not_mem (h : Links f chains) : f.heap.length ∉ chains.flatten :=
  fun hmem => Nat.lt_irrefl _ (h.lt hmem)

theorem entity_newEntity (f : Frame) (pipeId b : ℕ) :
    (f.newEntity pipeId).1.entity b =
      if b = f.heap.length then some (Entity.new pipeId) else f.entity b := by
  unfold Frame.entity Frame.newEntity
  by_cases hb : b = f.heap.length
  · subst hb
    rw [if_pos rfl]
    exact read_alloc_self
  · rw [if_neg hb]
    exact read_alloc_of_ne hb

theorem Frame.setNextEntity_eq (h : f.entity a = some e) (next : Option ℕ) :
    f.setNextEntity a next =
      some { f with heap := write f.heap a { e with nextEntity := next } } := by
  rw [Frame.setNextEntity, h, map_some]

theorem entity_write (h : f.entity a = some e) (e' : Entity) (b : ℕ) :
    Frame.entity { f with heap := write f.heap a e' } b =
      if b = a then some e' else f.entity b := by
  unfold Frame.entity
  by_cases hb : b = a
  · subst hb
    rw [if_pos rfl]
    exact read_write_self (lt_of_read h)
  · rw [if_neg hb]
    exact read_write_of_ne hb

/-! ## Building -/

variable {pipeId : ℕ}

/-- **A sibling** starts a chain. -/
theorem Links.sibling (h : Links f chains) (hpipe : f.NewPipe pipeId) :
    Links ((f.newEntity pipeId).1.addSiblingEntity (f.newEntity pipeId).2)
      (chains ++ [[f.heap.length]]) := by
  have hentity (b : ℕ) : Frame.entity
      ((f.newEntity pipeId).1.addSiblingEntity (f.newEntity pipeId).2) b =
      if b = f.heap.length then some (Entity.new pipeId) else f.entity b :=
    entity_newEntity f pipeId b
  have hflat : (chains ++ [[f.heap.length]]).flatten = chains.flatten ++ [f.heap.length] := by
    simp
  refine ⟨?_, ?_, ?_, ?_, ?_⟩
  · refine rel_append ?_ (List.Forall₂.cons ⟨rfl, Entity.new pipeId, ?_, rfl⟩ List.Forall₂.nil)
    · refine h.linked.congr fun a ha e he => ⟨e, ?_, rfl⟩
      have hne : a ≠ f.heap.length := Nat.ne_of_lt (h.lt ha)
      exact (hentity a).trans ((if_neg hne).trans he)
    · exact (hentity _).trans (if_pos rfl)
  · rw [hflat]
    refine nodup_append'.mpr ⟨h.distinct, nodup_singleton _, fun a ha hb => ?_⟩
    rw [mem_singleton.mp hb] at ha
    exact h.newEntity_not_mem ha
  · intro a e he
    rw [hentity] at he
    rw [hflat]
    split at he
    · rename_i hnew
      exact mem_append_right _ (mem_singleton.mpr hnew)
    · exact mem_append_left _ (h.all a e he)
  · intro l hl
    rcases mem_append.mp hl with hold | hnew
    · exact h.nonempty l hold
    · rw [mem_singleton.mp hnew]
      exact cons_ne_nil _ _
  · intro a b e e' he he' hsame
    rw [hentity] at he he'
    split at he
    · rename_i ha
      obtain rfl := some.inj he
      split at he'
      · rename_i hb
        exact ha.trans hb.symm
      · exact absurd hsame.symm (hpipe b e' he')
    · split at he'
      · obtain rfl := some.inj he'
        exact absurd hsame (hpipe a e he)
      · exact h.pipes a b e e' he he' hsame

variable {parent : ℕ}

/-- **A child** is linked in behind its parent. -/
theorem Links.child (h : Links f chains) (hpipe : f.NewPipe pipeId)
    (hparent : f.entity parent = some e) {child : Entity} (hchild : child.pipeId = pipeId)
    (hnext : child.nextEntity = e.nextEntity) (hlist : f'.linkageList = f.linkageList)
    (hentity : ∀ b, f'.entity b = if b = f.heap.length then some child
      else if b = parent then some { e with nextEntity := some f.heap.length } else f.entity b) :
    ∃ chains', Links f' chains' := by
  have hmem : parent ∈ chains.flatten := h.all parent e hparent
  have hold (b : ℕ) (hb : b ∈ chains.flatten) : b ≠ f.heap.length := Nat.ne_of_lt (h.lt hb)
  have hwas (b : ℕ) (d : Entity) (hd : f'.entity b = some d) (hb : b ≠ f.heap.length) :
      ∃ d', f.entity b = some d' ∧ d'.pipeId = d.pipeId := by
    rw [hentity, if_neg hb] at hd
    split at hd
    · rename_i hbp
      subst hbp
      obtain rfl := some.inj hd
      exact ⟨e, hparent, rfl⟩
    · exact ⟨d, hd, rfl⟩
  obtain ⟨chains', hchains, hperm, hne⟩ :
      ∃ chains', Chains Entity.nextEntity f'.heap f.linkageList chains' ∧
        chains'.flatten.Perm (f.heap.length :: chains.flatten) ∧
        ((∀ l ∈ chains, l ≠ []) → ∀ l ∈ chains', l ≠ []) := by
    refine h.linked.insert h.distinct hmem ?_ ?_ ?_
    · exact ⟨{ e with nextEntity := some f.heap.length },
        (hentity parent).trans ((if_neg (hold parent hmem)).trans (if_pos rfl)), rfl⟩
    · intro c hc
      obtain rfl := some.inj (hparent.symm.trans hc)
      exact ⟨child, (hentity _).trans (if_pos rfl), hnext⟩
    · intro b hb hbp
      exact (hentity b).trans ((if_neg (hold b hb)).trans (if_neg hbp))
  refine ⟨chains', ?_, ?_, ?_, hne h.nonempty, ?_⟩
  · rw [hlist]
    exact hchains
  · rw [hperm.nodup_iff, nodup_cons]
    exact ⟨h.newEntity_not_mem, h.distinct⟩
  · intro b d hd
    rw [hperm.mem_iff, mem_cons]
    by_cases hb : b = f.heap.length
    · exact Or.inl hb
    · obtain ⟨d', hd', -⟩ := hwas b d hd hb
      exact Or.inr (h.all b d' hd')
  · have hnew (b : ℕ) (d d' : Entity) (hd : f'.entity b = some d)
        (hd' : f'.entity f.heap.length = some d') (hsame : d.pipeId = d'.pipeId) :
        b = f.heap.length := by
      by_contra hb
      rw [hentity, if_pos rfl, some.injEq] at hd'
      obtain ⟨d₀, hd₀, hpipe₀⟩ := hwas b d hd hb
      refine hpipe b d₀ hd₀ ?_
      rw [hpipe₀, hsame, ← hd', hchild]
    intro b b' d d' hd hd' hsame
    by_cases hb : b = f.heap.length
    · subst hb
      exact (hnew b' d' d hd' hd hsame.symm).symm
    · by_cases hb' : b' = f.heap.length
      · subst hb'
        exact hnew b d d' hd hd' hsame
      · obtain ⟨d₀, hd₀, hpipe₀⟩ := hwas b d hd hb
        obtain ⟨d₁, hd₁, hpipe₁⟩ := hwas b' d' hd' hb'
        exact h.pipes b b' d₀ d₁ hd₀ hd₁ (by rw [hpipe₀, hpipe₁, hsame])

/-- Two frames with the same list and the same counts. -/
structure SameCounts (f g : Frame) : Prop where
  list : g.linkageList = f.linkageList
  request : g.numRequestPipe = f.numRequestPipe
  complete : g.numCompletePipe = f.numCompletePipe
  state : g.frameState = f.frameState

theorem SameCounts.trans {f g h : Frame} (hfg : SameCounts f g) (hgh : SameCounts g h) :
    SameCounts f h :=
  ⟨hgh.list.trans hfg.list, hgh.request.trans hfg.request, hgh.complete.trans hfg.complete,
    hgh.state.trans hfg.state⟩

theorem setNextEntity_spec {g : Frame} {next : Option ℕ} (h : f.entity a = some e)
    (hset : f.setNextEntity a next = some g) :
    SameCounts f g ∧
      ∀ b, g.entity b = if b = a then some { e with nextEntity := next } else f.entity b := by
  rw [Frame.setNextEntity_eq h, some.injEq] at hset
  subst hset
  exact ⟨⟨rfl, rfl, rfl, rfl⟩, entity_write h _⟩

theorem entity_eq_ite (h : f.entity a = some e) (b : ℕ) :
    f.entity b = if b = a then some e else f.entity b := by
  split
  · next hb => rw [hb, h]
  · rfl

theorem setParentPipeId_spec {g : Frame} {parentPipeId : ℤ} {st : Status}
    (h : f.entity a = some e) (hset : f.setParentPipeId a parentPipeId = some (g, st)) :
    SameCounts f g ∧ ∃ e', e'.pipeId = e.pipeId ∧ e'.state = e.state ∧
      ∀ b, g.entity b = if b = a then some e' else f.entity b := by
  rw [Frame.setParentPipeId, h, map_some, some.injEq] at hset
  split at hset
  · obtain ⟨rfl, -⟩ := Prod.mk.inj hset
    exact ⟨⟨rfl, rfl, rfl, rfl⟩, e, rfl, rfl, entity_eq_ite h⟩
  · obtain ⟨rfl, -⟩ := Prod.mk.inj hset
    exact ⟨⟨rfl, rfl, rfl, rfl⟩, { e with parentPipeId := parentPipeId }, rfl, rfl,
      entity_write h _⟩

/-- **What a new child does to a frame**: it takes over what its parent pointed to. -/
structure Adopted (f f' : Frame) (parent pipeId : ℕ) (e : Entity) : Prop where
  same : SameCounts f f'
  entities : ∃ child : Entity, child.pipeId = pipeId ∧ child.state = .ready ∧
    child.nextEntity = e.nextEntity ∧
    ∀ b, f'.entity b = if b = f.heap.length then some child else
      if b = parent then some { e with nextEntity := some f.heap.length } else f.entity b

theorem entity_newEntity_of_some (h : f.entity a = some e) (pipeId : ℕ) :
    (f.newEntity pipeId).1.entity a = some e := by
  rw [entity_newEntity, if_neg (Nat.ne_of_lt (lt_of_read h))]
  exact h

/-- The parent is told of the child, which is new. -/
theorem entity_child {f₁ : Frame} {next : Option ℕ} (hparent : f.entity parent = some e)
    (hset : (f.newEntity pipeId).1.setNextEntity parent next = some f₁) :
    f₁.entity f.heap.length = some (Entity.new pipeId) := by
  rw [(setNextEntity_spec (entity_newEntity_of_some hparent pipeId) hset).2,
    if_neg (Nat.ne_of_gt (lt_of_read hparent)), entity_newEntity, if_pos rfl]

/-- The parent points to the child, and the child to what comes next. -/
theorem adopted_of_links {f₁ f₂ : Frame} {child : Entity} (hparent : f.entity parent = some e)
    (hset : (f.newEntity pipeId).1.setNextEntity parent (some f.heap.length) = some f₁)
    (hpipe : child.pipeId = pipeId) (hready : child.state = .ready) (hsame : SameCounts f₁ f₂)
    (htell : ∀ b, f₂.entity b = if b = f.heap.length then some child else f₁.entity b)
    (hlink : f₂.setNextEntity f.heap.length e.nextEntity = some f') :
    Adopted f f' parent pipeId e := by
  obtain ⟨hsame₁, hentity₁⟩ := setNextEntity_spec (entity_newEntity_of_some hparent pipeId) hset
  have hchild : f₂.entity f.heap.length = some child := by rw [htell, if_pos rfl]
  obtain ⟨hsame₂, hentity₂⟩ := setNextEntity_spec hchild hlink
  have hnew : SameCounts f (f.newEntity pipeId).1 := ⟨rfl, rfl, rfl, rfl⟩
  refine ⟨((hnew.trans hsame₁).trans hsame).trans hsame₂,
    { child with nextEntity := e.nextEntity }, hpipe, hready, rfl, fun b => ?_⟩
  rw [hentity₂]
  by_cases hb : b = f.heap.length
  · rw [if_pos hb, if_pos hb]
  · rw [if_neg hb, if_neg hb, htell, if_neg hb, hentity₁, entity_newEntity, if_neg hb]

theorem adopted_addChildEntity (hparent : f.entity parent = some e)
    (hadd : (f.newEntity pipeId).1.addChildEntity parent (f.newEntity pipeId).2 = some (f', .noError)) :
    Adopted f f' parent pipeId e := by
  rw [Frame.addChildEntity, entity_newEntity_of_some hparent, bind_some] at hadd
  obtain ⟨f₁, hset, hrest⟩ := bind_eq_some_iff.mp hadd
  obtain ⟨f₂, hlink, hf₂⟩ := map_eq_some_iff.mp hrest
  obtain ⟨rfl, -⟩ := Prod.mk.inj hf₂
  exact adopted_of_links hparent hset rfl rfl ⟨rfl, rfl, rfl, rfl⟩
    (entity_eq_ite (entity_child hparent hset)) hlink

theorem adopted_addChildEntityOf {parentPipeId : ℤ} (hparent : f.entity parent = some e)
    (hadd : (f.newEntity pipeId).1.addChildEntityOf parent (f.newEntity pipeId).2 parentPipeId =
      some (f', .noError)) :
    Adopted f f' parent pipeId e := by
  rw [Frame.addChildEntityOf, entity_newEntity_of_some hparent, bind_some] at hadd
  obtain ⟨f₁, hset, hrest⟩ := bind_eq_some_iff.mp hadd
  obtain ⟨⟨f₂, st⟩, htold, hlink⟩ := bind_eq_some_iff.mp hrest
  have hchild := entity_child hparent hset
  -- What the child is told of its parent.
  obtain ⟨hsame, child, hpipe, hready, htell⟩ :
      SameCounts f₁ f₂ ∧ ∃ child : Entity, child.pipeId = pipeId ∧ child.state = .ready ∧
        ∀ b, f₂.entity b = if b = f.heap.length then some child else f₁.entity b := by
    by_cases hpos : 0 ≤ parentPipeId
    · rw [if_pos hpos] at htold
      exact setParentPipeId_spec hchild htold
    · rw [if_neg hpos, some.injEq] at htold
      obtain ⟨rfl, -⟩ := Prod.mk.inj htold
      exact ⟨⟨rfl, rfl, rfl, rfl⟩, Entity.new pipeId, rfl, rfl, entity_eq_ite hchild⟩
  cases st with
  | badValue =>
    simp only [some.injEq, Prod.mk.injEq] at hlink
    exact absurd hlink.2 Status.noConfusion
  | noError =>
    obtain ⟨f₃, hset₃, hf₃⟩ := map_eq_some_iff.mp hlink
    obtain ⟨rfl, -⟩ := Prod.mk.inj hf₃
    exact adopted_of_links hparent hset hpipe hready hsame htell hset₃

theorem entity_init (maxPipeNum a : ℕ) : (Frame.init maxPipeNum).entity a = none := rfl

/-- **Every frame that is built is in chains.** -/
theorem Built.links (h : Built f) : ∃ chains, Links f chains := by
  induction h with
  | init maxPipeNum =>
    refine ⟨[], List.Forall₂.nil, nodup_nil, fun a e he => ?_, fun l hl => ?_,
      fun a b e e' he => ?_⟩
    · exact absurd (he.symm.trans (entity_init maxPipeNum a)) (some_ne_none e)
    · exact absurd hl not_mem_nil
    · exact absurd (he.symm.trans (entity_init maxPipeNum a)) (some_ne_none e)
  | request num _ ih =>
    obtain ⟨chains, hl⟩ := ih
    exact ⟨chains, hl.linked, hl.distinct, hl.all, hl.nonempty, hl.pipes⟩
  | results pipes statuses _ ih =>
    obtain ⟨chains, hl⟩ := ih
    exact ⟨chains, hl.linked, hl.distinct, hl.all, hl.nonempty, hl.pipes⟩
  | sibling pipeId _ hpipe ih =>
    obtain ⟨chains, hl⟩ := ih
    exact ⟨_, hl.sibling hpipe⟩
  | child pipeId _ hpipe hparent hadd ih =>
    obtain ⟨chains, hl⟩ := ih
    obtain ⟨hsame, child, hchild, -, hnext, hentity⟩ := adopted_addChildEntity hparent hadd
    exact hl.child hpipe hparent hchild hnext hsame.list hentity
  | childOf pipeId parentPipeId _ hpipe hparent hadd ih =>
    obtain ⟨chains, hl⟩ := ih
    obtain ⟨hsame, child, hchild, -, hnext, hentity⟩ := adopted_addChildEntityOf hparent hadd
    exact hl.child hpipe hparent hchild hnext hsame.list hentity

/-- **A frame of which nothing is done**: no entity is complete, none is counted. -/
structure Ready (f : Frame) : Prop where
  entities : ∀ a e, f.entity a = some e → e.state = .ready
  complete : f.numCompletePipe = 0
  state : f.frameState = .ready

theorem Ready.adopted (h : Ready f) (hparent : f.entity parent = some e)
    (hadopted : Adopted f f' parent pipeId e) : Ready f' := by
  obtain ⟨hsame, child, -, hready, -, hentity⟩ := hadopted
  refine ⟨fun a d hd => ?_, hsame.complete.trans h.complete, hsame.state.trans h.state⟩
  rw [hentity] at hd
  split at hd
  · obtain rfl := some.inj hd
    exact hready
  · split at hd
    · obtain rfl := some.inj hd
      exact h.entities parent e hparent
    · exact h.entities a d hd

/-- And nothing is done of a frame that is only built. -/
theorem Built.ready (h : Built f) : Ready f := by
  induction h with
  | init maxPipeNum =>
    refine ⟨fun a e he => ?_, rfl, rfl⟩
    exact absurd (he.symm.trans (entity_init maxPipeNum a)) (some_ne_none e)
  | request num _ ih => exact ⟨ih.entities, ih.complete, ih.state⟩
  | results pipes statuses _ ih => exact ⟨ih.entities, ih.complete, ih.state⟩
  | sibling pipeId _ hpipe ih =>
    rename_i f _
    refine ⟨fun a d hd => ?_, ih.complete, ih.state⟩
    have hnew : (f.newEntity pipeId).1.entity a = some d := hd
    rw [entity_newEntity] at hnew
    split at hnew
    · obtain rfl := some.inj hnew
      rfl
    · exact ih.entities a d hnew
  | child pipeId _ hpipe hparent hadd ih =>
    exact ih.adopted hparent (adopted_addChildEntity hparent hadd)
  | childOf pipeId parentPipeId _ hpipe hparent hadd ih =>
    exact ih.adopted hparent (adopted_addChildEntityOf hparent hadd)

end ExynosVendor.Camera.FrameEntity
