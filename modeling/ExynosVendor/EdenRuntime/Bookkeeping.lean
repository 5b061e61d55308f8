import ExynosVendor.EdenRuntime.BufferBooks
import ExynosVendor.EdenRuntime.RequestBooks

/-!
# The bookkeeping of the Eden runtime service

The books of the requests and of the buffers are kept by every step that meets its condition,
and they say that nothing that is gone is used. For a request or a buffer that no call is
about the equations have nothing left but what the runtime has.

The condition is broken in several ways by the code as it is: `executeReq` leaves the maps as
they are when the runtime refuses a request, `edenNotify` returns early and leaves its request
behind, `freeBuffer` deletes the handle before the runtime has agreed, and two calls may be
between the look-up and the update of one buffer.
-/

namespace ExynosVendor.EdenRuntime

open Phase State Threads

/-- **The books are kept.** -/
structure Kept (s : State) : Prop where
  fault : s.fault = false
  requests : RequestsKept s
  buffers : BuffersKept s

namespace Kept

theorem initial : Kept State.initial := ⟨rfl, RequestsKept.initial, BuffersKept.initial⟩

variable {s : State} {n : ℕ}

/-- **The equations** have nothing left but the runtime's own where no call is. -/
theorem lawful (h : Kept s) : s.Lawful where
  fault := h.fault
  accepted := by
    intro r hr
    have hcvalue := h.requests.cvalue r
    have hlive := h.requests.live r
    have hin := (s.mapReqCvalue r).isSome.toNat_le
    have hone := (s.requests r).toNat_le
    rw [hr, Bool.toNat_true] at hcvalue hlive
    have hreq : (s.mapReqCvalue r).isSome = true := Bool.toNat_eq_one.mp (by omega)
    exact ⟨hreq, (h.requests.pids r).trans hreq, Bool.toNat_eq_one.mp (by omega)⟩
  requests := by
    intro r hsettled
    have hcvalue := h.requests.cvalue r
    have hlive := h.requests.live r
    have hcarrying := count_eq_zero fun p hp => (hsettled p hp).2.1
    rw [hcarrying, count_eq_zero fun p hp => (hsettled p hp).2.2] at hcvalue
    rw [hcarrying, count_eq_zero fun p hp => (hsettled p hp).1] at hlive
    have hreq : (s.mapReqCvalue r).isSome = s.accepted r := eq_of_toNat_eq hcvalue
    exact ⟨hreq, (h.requests.pids r).trans hreq, eq_of_toNat_eq hlive⟩
  buffers := by
    intro a hquiet
    have hentries := h.buffers.entries a
    have hserved := h.buffers.served a
    rw [count_eq_zero fun p hp => (hquiet p hp).2.1] at hserved
    rw [count_eq_zero fun p hp => (hquiet p hp).1,
      count_eq_zero fun p hp => (hquiet p hp).2.2] at hentries
    have hbuffer : (s.mapBufferHandle a).isSome = s.allocated a := eq_of_toNat_eq hentries
    exact ⟨hbuffer, (eq_of_toNat_eq hserved).trans hbuffer⟩
  handles := h.buffers.handles.owned

/-- A buffer nobody is deleting the handle of has one that lives. -/
theorem served (h : Kept s) {a : ℕ} (hsome : (s.mapBufferHandle a).isSome = true)
    (hun : s.Unclaimed a) : servedBy s.mapBufferHandle s.handles a = true := by
  have hserved := h.buffers.served a
  rw [count_eq_zero hun, hsome] at hserved
  exact eq_of_toNat_eq hserved

theorem handle_live (h : Kept s) {a nh : ℕ}
    (hhandle : (s.mapBufferHandle a).map Entry.handle = some nh) (hun : s.Unclaimed a) :
    s.handles nh = true := by
  obtain ⟨e, he, rfl⟩ := Option.map_eq_some_iff.mp hhandle
  obtain ⟨e', he', hlive⟩ := servedBy_iff.mp (h.served (by rw [he]; rfl) hun)
  rw [he] at he'
  rw [Option.some.inj he']
  exact hlive

variable {node : ℕ} {p : Phase}

/-- **A call deletes the handle it found**, if the entry is still there and nobody else has. -/
theorem deleteHandle (h : Kept s) {a : ℕ} (hnode : (s.mapBufferHandle a).map Entry.node = some node)
    (hun : s.Unclaimed a) :
    ∃ e, s.mapBufferHandle a = some e ∧ e.node = node ∧
      servedBy s.mapBufferHandle s.handles a = true ∧
      s.deleteHandle a node =
        some ({ s with handles := Function.update s.handles e.handle false }, e) := by
  obtain ⟨e, he, hen⟩ := Option.map_eq_some_iff.mp hnode
  have hserved := h.served (by rw [he]; rfl) hun
  obtain ⟨e', he', hlive⟩ := servedBy_iff.mp hserved
  rw [he] at he'
  obtain rfl := Option.some.inj he'
  refine ⟨e, he, hen, hserved, ?_⟩
  rw [State.deleteHandle, he]
  exact if_pos ⟨hen, hlive⟩

/-! ## One step -/

variable {ok : Bool} {b q : ℕ}

theorem allocMatch (h : Kept s) {num : ℕ} (hp : s.calls[n]? = some (.allocMatch b num)) :
    Kept (s.goOn n (some (.allocStore b num))) where
  fault := h.fault
  requests := h.requests.goOn hp (some (.allocStore b num))
    (fun _ => rfl) (fun _ => rfl) (fun _ => rfl) rfl rfl (fun _ => rfl) rfl rfl
  buffers := by
    refine h.buffers.goOn hp (some (.allocStore b num))
      (fun _ => rfl) (fun _ => rfl) (fun _ => rfl) ?_ rfl rfl rfl rfl rfl
    intro a node u hu hholds
    rw [← Option.some.inj hu] at hholds
    rcases hholds with heq | heq <;> cases heq

theorem allocStore (h : Kept s) {num : ℕ} (hp : s.calls[n]? = some (.allocStore b num))
    (hmay : s.MayGoOn ok (.allocStore b num)) : Kept (s.stepAlloc n ok (.allocStore b num)) where
  fault := h.fault
  requests := h.requests.goOn hp (some (.allocReply b s.nextHandle))
    (fun _ => rfl) (fun _ => rfl) (fun _ => rfl) rfl rfl (fun _ => rfl) rfl rfl
  buffers := h.buffers.allocStore hp hmay _

theorem finish (h : Kept s) (hp : s.calls[n]? = some p)
    (hrequests : ∀ r, storing r p = false ∧ carrying r p = false ∧ erasing r p = false)
    (hbuffers : ∀ a, allocating a p = false ∧ deleted a p = false ∧ freed a p = false) :
    Kept (s.goOn n none) where
  fault := h.fault
  requests := h.requests.goOn hp none (fun r => (hrequests r).1.symm)
    (fun r => (hrequests r).2.1.symm) (fun r => (hrequests r).2.2.symm) rfl rfl (fun _ => rfl)
    rfl rfl
  buffers := h.buffers.goOn hp none (fun a => (hbuffers a).1.symm) (fun a => (hbuffers a).2.1.symm)
    (fun a => (hbuffers a).2.2.symm) (fun _ _ _ hu => by cases hu) rfl rfl rfl rfl rfl

theorem allocReply (h : Kept s) {nh : ℕ} (hp : s.calls[n]? = some (.allocReply b nh))
    (hmay : s.MayGoOn ok (.allocReply b nh)) : Kept (s.stepAlloc n ok (.allocReply b nh)) := by
  rw [State.stepAlloc, if_pos (h.handle_live hmay.1 hmay.2)]
  exact h.finish hp (fun _ => ⟨rfl, rfl, rfl⟩) (fun _ => ⟨rfl, rfl, rfl⟩)

theorem freeDelete (h : Kept s) (hp : s.calls[n]? = some (.freeDelete b node))
    (hmay : s.MayGoOn ok (.freeDelete b node)) : Kept (s.stepFree n ok (.freeDelete b node)) := by
  obtain ⟨e, he, hen, hserved, hdelete⟩ := h.deleteHandle hmay.1 hmay.2
  rw [State.stepFree, hdelete]
  refine ⟨h.fault, ?_, ?_⟩
  · exact h.requests.goOn hp (some (.freeRuntime b node))
      (fun _ => rfl) (fun _ => rfl) (fun _ => rfl) rfl rfl (fun _ => rfl) rfl rfl
  · refine h.buffers.deleteHandle hp he hserved (fun _ => ⟨rfl, rfl⟩) (fun _ => ⟨rfl, rfl⟩)
      (fun _ => ⟨rfl, rfl⟩) ?_
    intro a node' hholds
    rcases hholds with heq | heq
    · cases heq
      exact ⟨rfl, hen.symm⟩
    · cases heq

theorem freeRuntime (h : Kept s) (hp : s.calls[n]? = some (.freeRuntime b node))
    (hmay : s.MayGoOn ok (.freeRuntime b node)) :
    Kept (s.stepFree n ok (.freeRuntime b node)) := by
  rw [State.stepFree, if_pos (show ok = true from hmay)]
  exact ⟨h.fault, h.requests.goOn hp (some (.freeReply b node))
    (fun _ => rfl) (fun _ => rfl) (fun _ => rfl) rfl rfl (fun _ => rfl) rfl rfl,
    h.buffers.freeRuntime hp⟩

theorem freeReply (h : Kept s) (ok : Bool) (hp : s.calls[n]? = some (.freeReply b node)) :
    Kept (s.stepFree n ok (.freeReply b node)) := by
  have hnode := h.buffers.nodes _ (List.mem_of_getElem? hp) b node (Or.inr rfl)
  rw [State.stepFree, if_pos hnode]
  refine ⟨h.fault, h.requests.goOn hp (some (.freeErase b))
    (fun _ => rfl) (fun _ => rfl) (fun _ => rfl) rfl rfl (fun _ => rfl) rfl rfl, ?_⟩
  refine h.buffers.goOn hp (some (.freeErase b))
    (fun _ => rfl) (fun _ => rfl) (fun _ => rfl) ?_ rfl rfl rfl rfl rfl
  intro a node' u hu hholds
  rw [← Option.some.inj hu] at hholds
  rcases hholds with heq | heq <;> cases heq

theorem freeErase (h : Kept s) (ok : Bool) (hp : s.calls[n]? = some (.freeErase b)) :
    Kept (s.stepFree n ok (.freeErase b)) :=
  ⟨h.fault, h.requests.goOn hp none (fun _ => rfl) (fun _ => rfl) (fun _ => rfl) rfl rfl
    (fun _ => rfl) rfl rfl, h.buffers.freeErase hp⟩

/-- A call about a request goes on, and the buffers stay. -/
theorem buffers_goOn (h : Kept s) {s' : State} (hp : s.calls[n]? = some p) (next : Option Phase)
    (hold : ∀ a, allocating a p = false ∧ deleted a p = false ∧ freed a p = false)
    (hnew : ∀ a, next.elim false (allocating a) = false ∧ next.elim false (deleted a) = false ∧
      next.elim false (freed a) = false)
    (hallocated : s'.allocated = s.allocated) (hmap : s'.mapBufferHandle = s.mapBufferHandle)
    (hhandles : s'.handles = s.handles) (hnext : s'.nextHandle = s.nextHandle)
    (hcalls : s'.calls = Threads.move s.calls n next) : BuffersKept s' := by
  refine h.buffers.goOn hp next (fun a => (hnew a).1.trans (hold a).1.symm)
    (fun a => (hnew a).2.1.trans (hold a).2.1.symm) (fun a => (hnew a).2.2.trans (hold a).2.2.symm)
    ?_ hallocated hmap hhandles hnext hcalls
  rintro a node u rfl hholds
  have hdel := (hnew a).2.1
  rw [Option.elim, deleted_of_holdsNode hholds] at hdel
  exact Bool.false_ne_true hdel.symm

theorem execStore (h : Kept s) {outputAddr : ℕ} {pid : ℤ}
    (hp : s.calls[n]? = some (.execStore q outputAddr pid))
    (hmay : s.MayGoOn ok (.execStore q outputAddr pid)) :
    Kept (s.stepExec n ok (.execStore q outputAddr pid)) :=
  ⟨h.fault, h.requests.execStore hp hmay, h.buffers_goOn hp (some (.execRun q))
    (fun _ => ⟨rfl, rfl, rfl⟩) (fun _ => ⟨rfl, rfl, rfl⟩) rfl rfl rfl rfl rfl⟩

theorem execRun (h : Kept s) (hp : s.calls[n]? = some (.execRun q))
    (hmay : s.MayGoOn ok (.execRun q)) : Kept (s.stepExec n ok (.execRun q)) := by
  rw [State.stepExec, if_pos (show ok = true from hmay)]
  exact ⟨h.fault, h.requests.execRun hp, h.buffers_goOn hp none (fun _ => ⟨rfl, rfl, rfl⟩)
    (fun _ => ⟨rfl, rfl, rfl⟩) rfl rfl rfl rfl rfl⟩

theorem notify_goOn (h : Kept s) {next : Phase} (hp : s.calls[n]? = some p)
    (hstoring : ∀ r, storing r next = storing r p) (hcarrying : ∀ r, carrying r next = carrying r p)
    (herasing : ∀ r, erasing r next = erasing r p)
    (hold : ∀ a, allocating a p = false ∧ deleted a p = false ∧ freed a p = false)
    (hnew : ∀ a, allocating a next = false ∧ deleted a next = false ∧ freed a next = false) :
    Kept (s.goOn n (some next)) :=
  ⟨h.fault,
    h.requests.goOn hp (some next) hstoring hcarrying herasing rfl rfl (fun _ => rfl) rfl rfl,
    h.buffers_goOn hp (some next) hold hnew rfl rfl rfl rfl rfl⟩

theorem notifyFind (h : Kept s) (ok : Bool) (hp : s.calls[n]? = some (.notifyFind q)) :
    Kept (s.stepNotify n ok (.notifyFind q)) := by
  obtain ⟨-, hsome, hne⟩ := h.requests.live_of_carrying (q := q) hp (by simp [carrying])
  obtain ⟨outbufAddr, hout⟩ := Option.isSome_iff_exists.mp hsome
  rw [State.stepNotify, hout]
  dsimp only
  rw [if_neg hne]
  exact h.notify_goOn hp (fun _ => rfl) (fun _ => rfl) (fun _ => rfl) (fun _ => ⟨rfl, rfl, rfl⟩)
    (fun _ => ⟨rfl, rfl, rfl⟩)

theorem notifyMatch (h : Kept s) (hp : s.calls[n]? = some (.notifyMatch q b))
    (hmay : s.MayGoOn ok (.notifyMatch q b)) : Kept (s.stepNotify n ok (.notifyMatch q b)) := by
  obtain ⟨hlive, -⟩ := h.requests.live_of_carrying (q := q) hp (by simp [carrying])
  rw [State.stepNotify, if_pos hlive, if_pos (show ok = true from hmay)]
  exact h.notify_goOn hp (fun _ => rfl) (fun _ => rfl) (fun _ => rfl) (fun _ => ⟨rfl, rfl, rfl⟩)
    (fun _ => ⟨rfl, rfl, rfl⟩)

theorem notifyLookup (h : Kept s) (hp : s.calls[n]? = some (.notifyLookup q b))
    (hmay : s.MayGoOn ok (.notifyLookup q b)) : Kept (s.stepNotify n ok (.notifyLookup q b)) := by
  obtain ⟨e, he⟩ := Option.ne_none_iff_exists'.mp hmay
  rw [State.stepNotify, he, Option.map_some]
  exact h.notify_goOn hp (fun _ => rfl) (fun _ => rfl) (fun _ => rfl) (fun _ => ⟨rfl, rfl, rfl⟩)
    (fun _ => ⟨rfl, rfl, rfl⟩)

theorem notifyDelete (h : Kept s) (hp : s.calls[n]? = some (.notifyDelete q b node))
    (hmay : s.MayGoOn ok (.notifyDelete q b node)) :
    Kept (s.stepNotify n ok (.notifyDelete q b node)) := by
  obtain ⟨e, he, -, hserved, hdelete⟩ := h.deleteHandle hmay.1 hmay.2
  rw [State.stepNotify, hdelete]
  refine ⟨h.fault, ?_, ?_⟩
  · exact h.requests.goOn hp (some (.notifyStore q b e.num))
      (fun _ => rfl) (fun _ => rfl) (fun _ => rfl) rfl rfl (fun _ => rfl) rfl rfl
  · refine h.buffers.deleteHandle hp he hserved (fun _ => ⟨rfl, rfl⟩) (fun _ => ⟨rfl, rfl⟩)
      (fun _ => ⟨rfl, rfl⟩) ?_
    intro a node' hholds
    rcases hholds with heq | heq <;> cases heq

theorem notifyStore (h : Kept s) (ok : Bool) {num : ℕ}
    (hp : s.calls[n]? = some (.notifyStore q b num)) :
    Kept (s.stepNotify n ok (.notifyStore q b num)) :=
  ⟨h.fault, h.requests.goOn hp (some (.notifyCall q b s.nextHandle))
    (fun _ => rfl) (fun _ => rfl) (fun _ => rfl) rfl rfl (fun _ => rfl) rfl rfl,
    h.buffers.notifyStore hp _⟩

theorem notifyCall (h : Kept s) {nh : ℕ} (hp : s.calls[n]? = some (.notifyCall q b nh))
    (hmay : s.MayGoOn ok (.notifyCall q b nh)) :
    Kept (s.stepNotify n ok (.notifyCall q b nh)) := by
  obtain ⟨-, hsome, -⟩ := h.requests.live_of_carrying (q := q) hp (by simp [carrying])
  have huse : ¬ (ok = true ∧ s.handles nh = false) := by
    rintro ⟨hok, hdead⟩
    obtain ⟨hhandle, hun⟩ := hmay hok
    rw [h.handle_live hhandle hun] at hdead
    exact Bool.false_ne_true hdead.symm
  rw [State.stepNotify, if_neg huse]
  refine ⟨h.fault, ?_, h.buffers_goOn hp (some (.notifyRelease q))
    (fun _ => ⟨rfl, rfl, rfl⟩) (fun _ => ⟨rfl, rfl, rfl⟩) rfl rfl rfl rfl rfl⟩
  refine h.requests.goOn hp (some (.notifyRelease q))
    (fun _ => rfl) (fun _ => rfl) (fun _ => rfl) rfl rfl ?_ rfl rfl
  intro r
  simp only [State.goOn]
  by_cases hr : r = q
  · subst hr
    rw [Function.update_self, h.requests.pids, hsome]
    rfl
  · rw [Function.update_of_ne hr]

theorem notifyRelease (h : Kept s) (ok : Bool) (hp : s.calls[n]? = some (.notifyRelease q)) :
    Kept (s.stepNotify n ok (.notifyRelease q)) := by
  obtain ⟨hlive, -⟩ := h.requests.live_of_carrying (q := q) hp (by simp [carrying])
  rw [State.stepNotify, if_pos hlive]
  exact ⟨h.fault, h.requests.notifyRelease hp, h.buffers_goOn hp (some (.notifyErase q))
    (fun _ => ⟨rfl, rfl, rfl⟩) (fun _ => ⟨rfl, rfl, rfl⟩) rfl rfl rfl rfl rfl⟩

theorem notifyErase (h : Kept s) (ok : Bool) (hp : s.calls[n]? = some (.notifyErase q)) :
    Kept (s.stepNotify n ok (.notifyErase q)) :=
  ⟨h.fault, h.requests.notifyErase hp, h.buffers_goOn hp none (fun _ => ⟨rfl, rfl, rfl⟩)
    (fun _ => ⟨rfl, rfl, rfl⟩) rfl rfl rfl rfl rfl⟩

/-- **A call goes on**, whatever it is at. -/
theorem stepCall (h : Kept s) (hp : s.calls[n]? = some p) (hmay : s.MayGoOn ok p) :
    Kept (s.stepCall n ok p) := by
  cases p with
  | allocMatch b num =>
    rw [State.stepCall, State.stepAlloc, if_pos (show ok = true from hmay)]
    exact h.allocMatch hp
  | allocStore b num => exact h.allocStore hp hmay
  | allocReply b nh => exact h.allocReply hp hmay
  | freeDelete b node => exact h.freeDelete hp hmay
  | freeRuntime b node => exact h.freeRuntime hp hmay
  | freeReply b node => exact h.freeReply ok hp
  | freeErase b => exact h.freeErase ok hp
  | execStore q outputAddr pid => exact h.execStore hp hmay
  | execRun q => exact h.execRun hp hmay
  | notifyFind q => exact h.notifyFind ok hp
  | notifyMatch q b => exact h.notifyMatch hp hmay
  | notifyLookup q b => exact h.notifyLookup hp hmay
  | notifyDelete q b node => exact h.notifyDelete hp hmay
  | notifyStore q b num => exact h.notifyStore ok hp
  | notifyCall q b nh => exact h.notifyCall hp hmay
  | notifyRelease q => exact h.notifyRelease ok hp
  | notifyErase q => exact h.notifyErase ok hp

theorem buffers_begin (h : Kept s) {s' : State}
    (hnew : ∀ a, allocating a p = false ∧ deleted a p = false ∧ freed a p = false)
    (hallocated : s'.allocated = s.allocated) (hmap : s'.mapBufferHandle = s.mapBufferHandle)
    (hhandles : s'.handles = s.handles) (hnext : s'.nextHandle = s.nextHandle)
    (hcalls : s'.calls = s.calls ++ [p]) : BuffersKept s' :=
  h.buffers.begin (fun a => (hnew a).1) (fun a => (hnew a).2.1) (fun a => (hnew a).2.2)
    hallocated hmap hhandles hnext hcalls

/-- **A step.** -/
theorem step (h : Kept s) {e : Event} (hmeets : s.Meets e) : Kept (s.step e) := by
  unfold State.step
  rw [if_neg (by rw [h.fault]; simp)]
  cases e with
  | allocateBuffers b num =>
    dsimp only
    cases hfree : s.allocated b with
    | true => exact h
    | false =>
      exact ⟨h.fault, h.requests.begin (fun _ => rfl) (fun _ => rfl) (fun _ => rfl) rfl rfl rfl
        rfl rfl, h.buffers.allocate hfree num⟩
  | freeBuffer b =>
    dsimp only
    split
    · exact h
    · cases hmap : s.mapBufferHandle b with
      | none => exact h
      | some e =>
        exact ⟨h.fault, h.requests.begin (fun _ => rfl) (fun _ => rfl) (fun _ => rfl) rfl rfl rfl
          rfl rfl, h.buffers_begin (fun _ => ⟨rfl, rfl, rfl⟩) rfl rfl rfl rfl rfl⟩
  | executeReq q outputAddr pid =>
    dsimp only
    split
    · exact h
    · next hnew =>
      rw [not_or, Bool.not_eq_true] at hnew
      exact ⟨h.fault, h.requests.executeReq hnew.1 hnew.2 outputAddr pid,
        h.buffers_begin (fun _ => ⟨rfl, rfl, rfl⟩) rfl rfl rfl rfl rfl⟩
  | complete q =>
    dsimp only
    cases haccepted : s.accepted q with
    | false => exact h
    | true =>
      exact ⟨h.fault, h.requests.complete haccepted,
        h.buffers_begin (fun _ => ⟨rfl, rfl, rfl⟩) rfl rfl rfl rfl rfl⟩
  | step n ok =>
    dsimp only
    cases hp : s.calls[n]? with
    | none => exact h
    | some p => exact h.stepCall hp (hmeets h.fault p hp)

end Kept

namespace State

/-- **The books of a run** are right in every state, if every step meets its condition. -/
theorem books_kept (events : List Event) (h : Run.Throughout step Meets initial events) :
    Run.Always step Lawful initial events :=
  (Run.Always.of_invariant (P := Kept) (fun _ _ hs hmeets => hs.step hmeets) Kept.initial h).mono
    fun _ hs => hs.lawful

/-- Buffers are allocated, a request is made and completed, and the buffers are freed. -/
theorem books_kept_run :
    Run.Always step Lawful initial
      [.allocateBuffers 16 1, .step 0 true, .step 0 true, .step 0 true, .executeReq 32 16 5,
        .step 0 true, .step 0 true, .complete 32, .step 0 true, .step 0 true, .step 0 true,
        .step 0 true, .step 0 true, .step 0 true, .step 0 true, .step 0 true, .freeBuffer 16,
        .step 0 true, .step 0 true, .step 0 true, .step 0 true] :=
  books_kept _ (by decide +kernel)

/-- **A request that the runtime refuses** stays in the maps. -/
theorem not_books_kept : ¬ ∀ events : List Event, Run.Always step Lawful initial events := by
  intro h
  have hlast := (h [.executeReq 32 16 5, .step 0 true, .step 0 false]).last
  have hmap := (hlast.requests 32 fun p hp => absurd hp List.not_mem_nil).1
  exact absurd hmap (by decide)

end State

end ExynosVendor.EdenRuntime
