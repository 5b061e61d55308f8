import ExynosVendor.Common.Threads
import ExynosVendor.Ril.External.Sessions

/-!
# Who gets a response

The bits of the flag are the numbers of the sessions that are registered (`Registry`), as
long as no client is taken out between the two parts of its registration. Then the numbers
are distinct, a free one is found exactly when fewer than `RADIO_EXTERNAL_CLIENT_NUM` are
registered, and a number in the table belongs to the one session that has it.

A request has the number of its sender (`Answerable`), which is the sender's as long as its
session lasts. A request that outlives it is answered to the next session of the number.

A client that is registering is taken out only behind an error response, which lets go of a
read lock that nobody took: where every caller has the lock, the counter that was noted is an
old one by then (`Locked`).
-/

namespace ExynosVendor.Ril.External.Sessions

open List Option

variable {O : Type}

/-! ## The registered sessions -/

/-- The sessions that have a number. -/
def registered (sessions : List (Session O)) : List (Session O) :=
  sessions.filter fun x => x.stage ≠ .over

variable {sessions : List (Session O)} {t : Thread}

theorem mem_registered {x : Session O} :
    x ∈ registered sessions ↔ x ∈ sessions ∧ x.stage ≠ .over := by
  simp [registered]

/-- **The bits and the table** say which sessions are registered. -/
structure Registry (flag : BitVec 32) (res : ℕ → Option O) (sessions : List (Session O)) :
    Prop where
  inRange : ∀ x ∈ registered sessions, x.clientId < radioExternalClientNum
  distinct : ((registered sessions).map Session.clientId).Nodup
  taken : ∀ i < radioExternalClientNum,
    (flag.getLsbD i = true ↔ ∃ x ∈ registered sessions, x.clientId = i)
  listens : ∀ i o, res i = some o →
    ∃ x ∈ sessions, x.stage = .listening ∧ x.clientId = i ∧ x.object = o

/-- A bit that is set. -/
theorem getLsbD_set (flag : BitVec 32) {i j : ℕ} (hi : i < 32) :
    (flag ||| (1#32 <<< j)).getLsbD i = (flag.getLsbD i || decide (i = j)) := by
  rw [BitVec.getLsbD_or, BitVec.getLsbD_shiftLeft]
  congr 1
  by_cases hij : i = j
  · subst hij
    simp [hi]
  · rcases Nat.lt_or_gt_of_ne hij with h | h
    · simp [hij, h]
    · have hsub : i - j ≠ 0 := by omega
      simp [hij, hsub, BitVec.getLsbD_one]

theorem getLsbD_clear (flag : BitVec 32) {i j : ℕ} (hi : i < 32) :
    (flag &&& ~~~(1#32 <<< j)).getLsbD i = (flag.getLsbD i && !decide (i = j)) := by
  have hbit := getLsbD_set 0#32 (i := i) (j := j) hi
  rw [BitVec.zero_or, BitVec.getLsbD_zero, Bool.false_or] at hbit
  rw [BitVec.getLsbD_and, BitVec.getLsbD_not, hbit]
  simp [hi]

/-- **The first free number** is free, if there is one. -/
theorem firstFree_spec (flag : BitVec 32) (h : firstFree flag < radioExternalClientNum) :
    flag.getLsbD (firstFree flag) = false := by
  unfold firstFree at h ⊢
  cases hfind : (List.range radioExternalClientNum).find? fun i => !flag.getLsbD i with
  | none =>
    rw [hfind] at h
    exact absurd h (Nat.lt_irrefl _)
  | some i =>
    have hi := find?_some hfind
    simpa using hi

theorem firstFree_lt_iff (flag : BitVec 32) :
    firstFree flag < radioExternalClientNum ↔
      ∃ i < radioExternalClientNum, flag.getLsbD i = false := by
  unfold firstFree
  cases hfind : (List.range radioExternalClientNum).find? fun i => !flag.getLsbD i with
  | none =>
    constructor
    · intro h
      exact absurd h (Nat.lt_irrefl _)
    · rintro ⟨i, hi, hfree⟩
      have hall := find?_eq_none.mp hfind i (mem_range.mpr hi)
      rw [hfree] at hall
      exact absurd rfl hall
  | some i =>
    have hi := find?_some hfind
    have hmem := mem_range.mp (mem_of_find?_eq_some hfind)
    exact iff_of_true hmem ⟨i, hmem, by simpa using hi⟩

/-- Distinct numbers in range leave one out exactly when they are too few. -/
theorem exists_not_mem_iff {ids : List ℕ} (hnodup : ids.Nodup) {n : ℕ} (h : ∀ i ∈ ids, i < n) :
    (∃ i < n, i ∉ ids) ↔ ids.length < n := by
  constructor
  · rintro ⟨i, hi, hout⟩
    have hsub : (i :: ids) ⊆ List.range n := by
      intro j hj
      rcases mem_cons.mp hj with rfl | hj
      · exact mem_range.mpr hi
      · exact mem_range.mpr (h j hj)
    have hle := ((nodup_cons.mpr ⟨hout, hnodup⟩).subperm hsub).length_le
    rw [length_cons, length_range] at hle
    exact hle
  · intro hlt
    by_contra hnone
    push Not at hnone
    have hsub : List.range n ⊆ ids := fun j hj => hnone j (mem_range.mp hj)
    have hle := (nodup_range.subperm hsub).length_le
    rw [length_range] at hle
    omega

namespace Registry

variable {flag : BitVec 32} {res : ℕ → Option O} {sessions : List (Session O)}

theorem initial : Registry (0 : BitVec 32) (fun _ => none) ([] : List (Session O)) where
  inRange := by simp [registered]
  distinct := by simp [registered]
  taken := by simp [registered]
  listens := by simp

/-- **A number is obtained** exactly when fewer than all are in use. -/
theorem obtains (h : Registry flag res sessions) :
    firstFree flag < radioExternalClientNum ↔
      (registered sessions).length < radioExternalClientNum := by
  have hin : ∀ i ∈ (registered sessions).map Session.clientId, i < radioExternalClientNum := by
    intro i hi
    obtain ⟨x, hx, rfl⟩ := List.mem_map.mp hi
    exact h.inRange x hx
  have hcount := exists_not_mem_iff h.distinct hin
  rw [length_map] at hcount
  rw [firstFree_lt_iff, ← hcount]
  have hfree : ∀ i < radioExternalClientNum,
      (flag.getLsbD i = false ↔ i ∉ (registered sessions).map Session.clientId) := by
    intro i hi
    rw [← Bool.not_eq_true, h.taken i hi, List.mem_map]
  constructor
  · rintro ⟨i, hi, hbit⟩
    exact ⟨i, hi, (hfree i hi).mp hbit⟩
  · rintro ⟨i, hi, hout⟩
    exact ⟨i, hi, (hfree i hi).mpr hout⟩

/-- **One session has a number.** -/
theorem unique (h : Registry flag res sessions) {x y : Session O} (hx : x ∈ registered sessions)
    (hy : y ∈ registered sessions) (hid : x.clientId = y.clientId) : x = y :=
  inj_on_of_nodup_map h.distinct hx hy hid

/-! ## What keeps the registry -/

/-- **A new session** takes a free number, or none. -/
theorem determineClientId (h : Registry flag res sessions) (object : O) :
    Registry (flag ||| (1#32 <<< firstFree flag)) res
      (sessions ++ [⟨firstFree flag, object,
        if firstFree flag < radioExternalClientNum then .storing else .over⟩]) := by
  have hlisten : ∀ {y : Session O} i o, res i = some o →
      ∃ x ∈ sessions ++ [y], x.stage = .listening ∧ x.clientId = i ∧ x.object = o := by
    intro y i o hres
    obtain ⟨x, hx, hstage⟩ := h.listens i o hres
    exact ⟨x, mem_append_left _ hx, hstage⟩
  by_cases hlt : firstFree flag < radioExternalClientNum
  · rw [if_pos hlt]
    have hfree := firstFree_spec flag hlt
    have hreg : registered (sessions ++ [⟨firstFree flag, object, .storing⟩]) =
        registered sessions ++ [⟨firstFree flag, object, .storing⟩] := by
      simp [registered]
    -- a number whose bit is clear is nobody's
    have hout : ∀ x ∈ registered sessions, x.clientId ≠ firstFree flag := by
      intro x hx hid
      have hset := (h.taken _ hlt).mpr ⟨x, hx, hid⟩
      rw [hfree] at hset
      exact Bool.false_ne_true hset
    refine ⟨?_, ?_, ?_, hlisten⟩
    · rw [hreg]
      intro x hx
      rcases mem_append.mp hx with hx | hx
      · exact h.inRange x hx
      · rw [mem_singleton.mp hx]
        exact hlt
    · rw [hreg, map_append]
      refine List.Nodup.append h.distinct (nodup_singleton _) ?_
      intro i hi hi'
      obtain ⟨x, hx, rfl⟩ := List.mem_map.mp hi
      exact hout x hx (mem_singleton.mp hi')
    · intro i hi
      have h32 : i < 32 := by
        unfold radioExternalClientNum at hi
        omega
      rw [hreg, getLsbD_set flag h32, Bool.or_eq_true, h.taken i hi, decide_eq_true_iff]
      constructor
      · rintro (⟨x, hx, hid⟩ | hid)
        · exact ⟨x, mem_append_left _ hx, hid⟩
        · exact ⟨_, mem_append_right _ (mem_singleton.mpr rfl), hid.symm⟩
      · rintro ⟨x, hx, hid⟩
        rcases mem_append.mp hx with hx | hx
        · exact Or.inl ⟨x, hx, hid⟩
        · rw [mem_singleton.mp hx] at hid
          exact Or.inr hid.symm
  -- no number is free, and the bit that is set is behind the last one
  · rw [if_neg hlt]
    have hreg : registered (sessions ++ [⟨firstFree flag, object, .over⟩]) =
        registered sessions := by
      simp [registered]
    refine ⟨?_, ?_, ?_, hlisten⟩
    · rw [hreg]
      exact h.inRange
    · rw [hreg]
      exact h.distinct
    · intro i hi
      have h32 : i < 32 := by
        unfold radioExternalClientNum at hi
        omega
      have hne : i ≠ firstFree flag := by omega
      rw [hreg, getLsbD_set flag h32, Bool.or_eq_true, decide_eq_true_iff, or_iff_left hne]
      exact h.taken i hi

/-- Storing the callbacks leaves the numbers. -/
theorem registered_store (sessions : List (Session O)) (id : ℕ) :
    registered (sessions.map (Session.store id)) =
      (registered sessions).map (Session.store id) := by
  unfold registered
  rw [List.filter_map]
  congr 1
  apply filter_congr
  intro x _
  simp only [Function.comp_apply, Session.store]
  split
  · next hx => simp [hx.2]
  · rfl

theorem store_clientId (id : ℕ) (x : Session O) :
    (Session.store id x).clientId = x.clientId := by
  unfold Session.store
  split <;> rfl

theorem store_object (id : ℕ) (x : Session O) : (Session.store id x).object = x.object := by
  unfold Session.store
  split <;> rfl

/-- **The callbacks are stored** for a session that has its number. -/
theorem store (h : Registry flag res sessions) {x : Session O} (hx : x ∈ sessions)
    (hstage : x.stage = .storing) :
    Registry flag (Function.update res x.clientId (some x.object))
      (sessions.map (Session.store x.clientId)) := by
  have hids : (registered (sessions.map (Session.store x.clientId))).map Session.clientId =
      (registered sessions).map Session.clientId := by
    rw [registered_store, List.map_map]
    exact map_congr_left fun y _ => store_clientId x.clientId y
  have hmem : ∀ i, (∃ y ∈ registered (sessions.map (Session.store x.clientId)), y.clientId = i) ↔
      ∃ y ∈ registered sessions, y.clientId = i := by
    intro i
    rw [← List.mem_map (f := Session.clientId), hids, List.mem_map]
  refine ⟨?_, hids ▸ h.distinct, ?_, ?_⟩
  · intro y hy
    obtain ⟨z, hz, hid⟩ := (hmem y.clientId).mp ⟨y, hy, rfl⟩
    rw [← hid]
    exact h.inRange z hz
  · intro i hi
    rw [h.taken i hi, hmem i]
  · intro i o hres
    by_cases hi : i = x.clientId
    · subst hi
      rw [Function.update_self] at hres
      have hstore : Session.store x.clientId x = { x with stage := .listening } :=
        if_pos ⟨rfl, hstage⟩
      refine ⟨_, mem_map_of_mem hx, ?_, store_clientId _ x, ?_⟩
      · rw [hstore]
      · rw [store_object]
        exact some.inj hres
    · rw [Function.update_of_ne hi] at hres
      obtain ⟨y, hy, hlist, hid, hobj⟩ := h.listens i o hres
      -- a session with another number is not touched
      have hstore : Session.store x.clientId y = y := by
        refine if_neg ?_
        rintro ⟨hsame, -⟩
        exact hi (hid.symm.trans hsame)
      exact ⟨y, List.mem_map.mpr ⟨y, hy, hstore⟩, hlist, hid, hobj⟩

/-- A number that nobody is storing callbacks for is cleared of its session, and of nothing
else. -/
theorem registered_finish {id : ℕ} (hsafe : ∀ x ∈ sessions, x.stage = .storing → x.clientId ≠ id) :
    registered (sessions.map (Session.finish id)) =
      (registered sessions).filter fun x => x.clientId ≠ id := by
  unfold registered
  rw [List.filter_map, List.filter_filter]
  rw [map_congr_left (g := fun x => x), List.map_id']
  · apply filter_congr
    intro x hx
    simp only [Function.comp_apply, Session.finish]
    by_cases hid : x.clientId = id
    · by_cases hlist : x.stage = .listening
      · simp [hid, hlist]
      -- nobody stores callbacks for the number, so this one is over already
      · have hover : x.stage = .over := by
          cases hstage : x.stage with
          | storing => exact absurd hid (hsafe x hx hstage)
          | listening => exact absurd hstage hlist
          | _ => rfl
        simp [hid, hover]
    · simp [hid]
  · intro x hx
    have hout := (mem_filter.mp hx).2
    simp only [Function.comp_apply, Session.finish] at hout ⊢
    split at hout
    · simp at hout
    · next hno => rw [if_neg hno]

theorem finish_clientId (id : ℕ) (x : Session O) :
    (Session.finish id x).clientId = x.clientId := by
  unfold Session.finish
  split <;> rfl

theorem finish_object (id : ℕ) (x : Session O) : (Session.finish id x).object = x.object := by
  unfold Session.finish
  split <;> rfl

/-- **A number is cleared.** -/
theorem clear (h : Registry flag res sessions) {id : ℕ}
    (hsafe : ∀ x ∈ sessions, x.stage = .storing → x.clientId ≠ id) :
    Registry (flag &&& ~~~(1#32 <<< id)) (Function.update res id none)
      (sessions.map (Session.finish id)) := by
  have hreg := registered_finish hsafe
  refine ⟨?_, ?_, ?_, ?_⟩
  · rw [hreg]
    intro x hx
    exact h.inRange x (mem_filter.mp hx).1
  · rw [hreg]
    exact h.distinct.sublist (filter_sublist.map _)
  · intro i hi
    have h32 : i < 32 := by
      unfold radioExternalClientNum at hi
      omega
    rw [hreg, getLsbD_clear flag h32, Bool.and_eq_true, h.taken i hi]
    simp only [mem_filter, Bool.not_eq_true', decide_eq_false_iff_not, decide_eq_true_iff]
    constructor
    · rintro ⟨⟨x, hx, rfl⟩, hne⟩
      exact ⟨x, ⟨hx, hne⟩, rfl⟩
    · rintro ⟨x, ⟨hx, hne⟩, rfl⟩
      exact ⟨⟨x, hx, rfl⟩, hne⟩
  · intro i o hres
    by_cases hi : i = id
    · subst hi
      rw [Function.update_self] at hres
      cases hres
    · rw [Function.update_of_ne hi] at hres
      obtain ⟨x, hx, hlist, hid, hobj⟩ := h.listens i o hres
      have hfinish : Session.finish id x = x := by
        refine if_neg ?_
        rintro ⟨hsame, -⟩
        exact hi (hid.symm.trans hsame)
      exact ⟨x, List.mem_map.mpr ⟨x, hx, hfinish⟩, hlist, hid, hobj⟩

end Registry

/-! ## The requests -/

/-- Sessions are added and change their stage; they keep their number and their object. -/
def Grows (sessions sessions' : List (Session O)) : Prop :=
  ∀ (i : ℕ) (x : Session O), sessions[i]? = some x →
    ∃ x', sessions'[i]? = some x' ∧ x'.clientId = x.clientId ∧ x'.object = x.object

theorem Grows.refl (sessions : List (Session O)) : Grows sessions sessions :=
  fun _ x hx => ⟨x, hx, rfl, rfl⟩

theorem Grows.append (sessions : List (Session O)) (x : Session O) :
    Grows sessions (sessions ++ [x]) := by
  intro i y hy
  have hlt : i < sessions.length := (List.getElem?_eq_some_iff.mp hy).1
  exact ⟨y, by rw [getElem?_append_left hlt, hy], rfl, rfl⟩

theorem Grows.map (sessions : List (Session O)) {f : Session O → Session O}
    (hid : ∀ x, (f x).clientId = x.clientId) (hobj : ∀ x, (f x).object = x.object) :
    Grows sessions (sessions.map f) := by
  intro i x hx
  exact ⟨f x, by rw [getElem?_map, hx, map_some], hid x, hobj x⟩

/-- A request has the number its sender got. -/
def Owned (sessions : List (Session O)) (r : RequestInfo) : Prop :=
  ∃ x, sessions[r.sender]? = some x ∧ x.clientId = r.clientId

/-- **A response that reached the callback object its sender registered.** -/
def ToSender (sessions : List (Session O)) (d : RequestInfo × O) : Prop :=
  ∃ x, sessions[d.1.sender]? = some x ∧ x.object = d.2

variable {sessions' : List (Session O)}

theorem Owned.grow (hg : Grows sessions sessions') {r : RequestInfo} (h : Owned sessions r) :
    Owned sessions' r := by
  obtain ⟨x, hx, hid⟩ := h
  obtain ⟨x', hx', hid', -⟩ := hg r.sender x hx
  exact ⟨x', hx', hid'.trans hid⟩

theorem ToSender.grow (hg : Grows sessions sessions') {d : RequestInfo × O}
    (h : ToSender sessions d) : ToSender sessions' d := by
  obtain ⟨x, hx, hobj⟩ := h
  obtain ⟨x', hx', -, hobj'⟩ := hg d.1.sender x hx
  exact ⟨x', hx', hobj'.trans hobj⟩

/-- A thread that answers a request calls the number of the request, whose sender has it. -/
def Thread.Sound (sessions : List (Session O)) (t : Thread) : Prop :=
  ∀ r, t.request = some r → Owned sessions r ∧ ∀ id ∈ t.todo, id = r.clientId

theorem Thread.Sound.grow (hg : Grows sessions sessions') (h : t.Sound sessions) :
    t.Sound sessions' :=
  fun r hr => ⟨(h r hr).1.grow hg, (h r hr).2⟩

theorem Thread.Sound.of_todo {t' : Thread} (h : t.Sound sessions)
    (hrequest : t'.request = t.request) (htodo : t'.todo ⊆ t.todo) :
    t'.Sound sessions :=
  fun r hr => ⟨(h r (hrequest ▸ hr)).1, fun id hid => (h r (hrequest ▸ hr)).2 id (htodo hid)⟩

/-- **What is answered** is owned, and what was delivered reached its sender. -/
structure Answerable (s : State O) : Prop where
  pending : ∀ r ∈ s.pending, Owned s.sessions r
  threads : ∀ t ∈ s.threads, t.Sound s.sessions
  delivered : ∀ d ∈ s.delivered, ToSender s.sessions d

/-- It does not matter what else the service does. -/
theorem Answerable.grow {s s' : State O} (h : Answerable s) (hg : Grows s.sessions s'.sessions)
    (hpending : s'.pending = s.pending) (hthreads : s'.threads = s.threads)
    (hdelivered : s'.delivered = s.delivered) : Answerable s' where
  pending := by
    intro r hr
    exact (h.pending r (hpending ▸ hr)).grow hg
  threads := by
    intro t ht
    exact (h.threads t (hthreads ▸ ht)).grow hg
  delivered := by
    intro d hd
    exact (h.delivered d (hdelivered ▸ hd)).grow hg

/-- A thread goes on. -/
theorem Answerable.set {s s' : State O} (h : Answerable s) {n : ℕ} (ht : t.Sound s'.sessions)
    (hg : Grows s.sessions s'.sessions) (hpending : s'.pending = s.pending)
    (hthreads : s'.threads = s.threads.set n t) (hdelivered : s'.delivered = s.delivered) :
    Answerable s' where
  pending := by
    intro r hr
    exact (h.pending r (hpending ▸ hr)).grow hg
  threads := by
    intro u hu
    rw [hthreads] at hu
    rcases mem_or_eq_of_mem_set hu with hold | rfl
    · exact (h.threads u hold).grow hg
    · exact ht
  delivered := by
    intro d hd
    exact (h.delivered d (hdelivered ▸ hd)).grow hg

/-- And a new one begins. -/
theorem Answerable.begin {s s' : State O} (h : Answerable s) (ht : t.Sound s.sessions)
    (hsessions : s'.sessions = s.sessions) (hpending : ∀ r ∈ s'.pending, Owned s.sessions r)
    (hthreads : s'.threads = s.threads ++ [t]) (hdelivered : s'.delivered = s.delivered) :
    Answerable s' where
  pending := by
    rw [hsessions]
    exact hpending
  threads := by
    intro u hu
    rw [hthreads] at hu
    rw [hsessions]
    rcases mem_append.mp hu with hold | hnew
    · exact h.threads u hold
    · rw [mem_singleton.mp hnew]
      exact ht
  delivered := by
    rw [hsessions, hdelivered]
    exact h.delivered

/-! ## The law and the condition -/

namespace State

/-- **What the numbers promise**: registered sessions have distinct numbers, one is obtained
exactly when fewer than all are in use, and a response reaches its sender or nobody. -/
structure Lawful (s : State O) : Prop where
  distinct : ((registered s.sessions).map Session.clientId).Nodup
  obtains : firstFree s.mAvailableClientFlag < radioExternalClientNum ↔
    (registered s.sessions).length < radioExternalClientNum
  toSender : ∀ d ∈ s.delivered, ToSender s.sessions d

/-- The session that sent the request is still registered, or its number is free. -/
def MayDeliver (s : State O) (t : Thread) : Prop :=
  t.todo ≠ [] → ∀ r ∈ t.request,
    (∃ x ∈ s.sessions[r.sender]?, x.stage ≠ .over) ∨
      ∀ x ∈ registered s.sessions, x.clientId ≠ r.clientId

/-- No session is between the two parts of its registration with the number that is taken
back. -/
def MayReset (s : State O) (t : Thread) : Prop :=
  t.phase = .noted (s.counter (t.todo.headD 0)) →
    ∀ x ∈ s.sessions, x.stage = .storing → x.clientId ≠ t.todo.headD 0

/-- **The condition**: no response goes out after the session of its request is over while
another session has the number, and no client that is registering is taken out. -/
def Meets (s : State O) : Event O → Prop
  | .thread n (.deliver _) =>
    s.alive = true → ∀ t ∈ s.threads[n]?, t.phase = .ready → s.MayDeliver t
  | .thread n .reset => s.alive = true → s.readers = 0 → ∀ t ∈ s.threads[n]?, s.MayReset t
  | _ => True

instance (s : State O) (t : Thread) : Decidable (s.MayDeliver t) :=
  inferInstanceAs (Decidable (t.todo ≠ [] → ∀ r ∈ t.request,
    (∃ x ∈ s.sessions[r.sender]?, x.stage ≠ .over) ∨
      ∀ x ∈ registered s.sessions, x.clientId ≠ r.clientId))

instance (s : State O) (t : Thread) : Decidable (s.MayReset t) :=
  inferInstanceAs (Decidable (t.phase = .noted (s.counter (t.todo.headD 0)) →
    ∀ x ∈ s.sessions, x.stage = .storing → x.clientId ≠ t.todo.headD 0))

instance Meets.decidable (s : State O) : (e : Event O) → Decidable (s.Meets e)
  | .thread n (.deliver _) => inferInstanceAs (Decidable
      (s.alive = true → ∀ t ∈ s.threads[n]?, t.phase = .ready → s.MayDeliver t))
  | .thread n .reset => inferInstanceAs (Decidable
      (s.alive = true → s.readers = 0 → ∀ t ∈ s.threads[n]?, s.MayReset t))
  | .thread _ .note | .thread _ .relock | .thread _ .finish => isTrue trivial
  | .determineClientId _ | .storeResponseFunctions | .clearResponseFunctions _ => isTrue trivial
  | .dispatchRaw _ _ _ _ _ | .onRequestComplete _ _ | .onUnsolicitedResponse _ => isTrue trivial

/-- The registry and the requests. -/
structure Kept (s : State O) : Prop where
  registry : Registry s.mAvailableClientFlag s.res s.sessions
  answerable : Answerable s

theorem Kept.lawful {s : State O} (h : s.Kept) : s.Lawful :=
  ⟨h.registry.distinct, h.registry.obtains, h.answerable.delivered⟩

theorem kept_initial : (initial : State O).Kept where
  registry := Registry.initial
  answerable := ⟨by simp [initial], by simp [initial], by simp [initial]⟩

/-! ## What every step keeps -/

variable {s : State O}

theorem Kept.determineClientId (h : s.Kept) (object : O) : (s.determineClientId object).Kept where
  registry := h.registry.determineClientId object
  answerable := h.answerable.grow (Grows.append _ _) rfl rfl rfl

theorem Kept.storeResponseFunctions (h : s.Kept) : s.storeResponseFunctions.Kept := by
  unfold State.storeResponseFunctions
  cases hfind : s.sessions.find? fun x => x.stage = .storing with
  | none => exact h
  | some x =>
    have hstage := find?_some hfind
    have hmem := mem_of_find?_eq_some hfind
    exact
      { registry := h.registry.store hmem (by simpa using hstage)
        answerable := h.answerable.grow
          (Grows.map _ (Registry.store_clientId _) (Registry.store_object _)) rfl rfl rfl }

variable {id n : ℕ} {s' : State O}

/-- **A number nobody is registering with** may be cleared. -/
theorem Kept.clear (h : s.Kept) (hsafe : ∀ x ∈ s.sessions, x.stage = .storing → x.clientId ≠ id) :
    (s.clear id).Kept where
  registry := h.registry.clear hsafe
  answerable := h.answerable.grow
    (Grows.map _ (Registry.finish_clientId _) (Registry.finish_object _)) rfl rfl rfl

theorem Kept.clearResponseFunctions (h : s.Kept) (hidle : s.Idle) (clientId : ℤ) :
    (s.clearResponseFunctions clientId).Kept := by
  unfold State.clearResponseFunctions
  split
  · exact h.clear fun x hx hstage => absurd hstage (hidle.1 x hx)
  · exact h

theorem mem_targets {r : RequestInfo} {calls : ℕ} (hid : id ∈ s.targets r calls) :
    id = r.clientId := by
  unfold targets at hid
  split at hid
  · exact absurd hid not_mem_nil
  · exact eq_of_mem_replicate hid

theorem Kept.dispatchRaw (h : s.Kept) (sender : ℕ) (serial rilcReqId slotId : ℤ) (known : Bool) :
    (s.dispatchRaw sender serial rilcReqId slotId known).Kept := by
  unfold State.dispatchRaw
  cases hx : s.sessions[sender]? with
  | none => exact h
  | some x =>
    dsimp only
    by_cases hlt : x.clientId < radioExternalClientNum
    · rw [if_pos hlt]
      have howned : Owned s.sessions ⟨serial, x.clientId, rilcReqId, slotId, known, sender⟩ :=
        ⟨x, hx, rfl⟩
      have hpending : ∀ r ∈ (⟨serial, x.clientId, rilcReqId, slotId, known, sender⟩ :
          RequestInfo) :: s.pending, Owned s.sessions r := by
        intro r hr
        rcases mem_cons.mp hr with rfl | hr
        · exact howned
        · exact h.answerable.pending r hr
      cases known with
      | true => exact ⟨h.registry, hpending, h.answerable.threads, h.answerable.delivered⟩
      | false =>
        refine ⟨h.registry, h.answerable.begin ?_ rfl hpending rfl rfl⟩
        intro r hr
        obtain rfl := some.inj hr
        exact ⟨howned, fun id hid => mem_targets hid⟩
    · rw [if_neg hlt]
      exact h

theorem Kept.onRequestComplete (h : s.Kept) (n responseLen : ℕ) :
    (s.onRequestComplete n responseLen).Kept := by
  unfold State.onRequestComplete
  cases hr : s.pending[n]? with
  | none => exact h
  | some r =>
    dsimp only
    by_cases hknown : r.known = true
    · rw [if_pos hknown]
      refine ⟨h.registry, h.answerable.begin ?_ rfl ?_ rfl rfl⟩
      · intro r' hr'
        obtain rfl := some.inj hr'
        exact ⟨h.answerable.pending r (mem_of_getElem? hr), fun id hid => mem_targets hid⟩
      · intro r' hr'
        exact h.answerable.pending r' (mem_of_mem_eraseIdx hr')
    · rw [if_neg hknown]
      exact h

theorem Kept.onUnsolicitedResponse (h : s.Kept) (datalen : ℕ) :
    (s.onUnsolicitedResponse datalen).Kept := by
  refine ⟨h.registry, h.answerable.begin (t := ⟨none, indicationCalls datalen, true, .ready⟩)
    ?_ rfl h.answerable.pending rfl rfl⟩
  intro r hr
  cases hr

variable {t : Thread}

/-- **A response is delivered** to the session that has the number; the condition says that
it is the sender's. -/
theorem Kept.toSender (h : s.Kept) (hsound : t.Sound s.sessions) {rest : List ℕ}
    (htodo : t.todo = id :: rest) {r : RequestInfo} (hr : t.request = some r) {o : O}
    (hres : s.res id = some o) (hmay : s.MayDeliver t) : ToSender s.sessions (r, o) := by
  obtain ⟨⟨x, hx, hxid⟩, hall⟩ := hsound r hr
  have hid : id = r.clientId := hall id (by rw [htodo]; exact mem_cons_self)
  obtain ⟨y, hy, hlist, hyid, hobj⟩ := h.registry.listens id o hres
  have hyreg : y ∈ registered s.sessions := mem_registered.mpr ⟨hy, by rw [hlist]; simp⟩
  refine ⟨x, hx, ?_⟩
  rcases hmay (by rw [htodo]; simp) r hr with ⟨x', hx', hstage⟩ | hfree
  · have hsame : x' = x := some.inj (hx'.symm.trans hx)
    rw [hsame] at hstage
    have hxreg : x ∈ registered s.sessions := mem_registered.mpr ⟨mem_of_getElem? hx, hstage⟩
    rw [h.registry.unique hxreg hyreg (by rw [hxid, hyid, hid]), hobj]
  · exact absurd (hyid.trans hid) (hfree y hyreg)

theorem Kept.deliver (h : s.Kept) (ht : t ∈ s.threads) (hmay : s.MayDeliver t) (isOk : Bool) :
    (s.deliver n t isOk).Kept := by
  have hsound := h.answerable.threads t ht
  have hgoes : ∀ {id : ℕ} {rest : List ℕ}, t.todo = id :: rest → ∀ phase,
      Thread.Sound s.sessions { t with todo := rest, phase := phase } := by
    intro id rest htodo phase
    exact hsound.of_todo rfl (by rw [htodo]; exact subset_cons_self id rest)
  cases htodo : t.todo with
  | nil =>
    rw [State.deliver, htodo]
    exact h
  | cons id rest =>
    -- a failed call keeps its number, for the reset
    have hstays : Thread.Sound s.sessions (if isOk then { t with todo := rest }
        else { t with todo := id :: rest, phase := .failed }) := by
      split
      · exact hgoes htodo t.phase
      · exact hsound.of_todo rfl (by rw [htodo]; exact List.Subset.refl _)
    rw [State.deliver, htodo]
    dsimp only
    cases hres : s.res id with
    | none =>
      dsimp only
      split
      · exact ⟨h.registry, h.answerable.set (hgoes htodo t.phase) (Grows.refl _) rfl rfl rfl⟩
      · exact ⟨h.registry, h.answerable.pending, h.answerable.threads, h.answerable.delivered⟩
    | some o =>
      have hset : ∀ u : Thread, u.Sound s.sessions →
          Answerable { s with threads := s.threads.set n u } :=
        fun u hu => h.answerable.set hu (Grows.refl _) rfl rfl rfl
      refine ⟨h.registry, (hset _ hstays).pending, (hset _ hstays).threads, ?_⟩
      intro d hd
      rcases mem_append.mp hd with hnew | hold
      · cases hr : t.request with
        | none =>
          rw [hr] at hnew
          exact absurd hnew not_mem_nil
        | some r =>
          rw [hr] at hnew
          rw [mem_singleton.mp hnew]
          exact h.toSender hsound htodo hr hres hmay
      · exact h.answerable.delivered d hold

theorem Kept.reset (h : s.Kept) (ht : t ∈ s.threads) {counter : ℕ}
    (hphase : t.phase = .noted counter) (hmay : s.MayReset t) : (s.reset n t counter).Kept := by
  have hgoes : ∀ {sessions : List (Session O)}, Grows s.sessions sessions →
      Thread.Sound sessions { t with phase := .relocking } := by
    intro sessions hg
    exact ((h.answerable.threads t ht).grow hg).of_todo rfl (List.Subset.refl _)
  unfold State.reset
  dsimp only
  by_cases hcounter : counter = s.counter (t.todo.headD 0)
  · rw [if_pos hcounter]
    have hclear := h.clear (hmay (by rw [hphase, hcounter]))
    have hg : Grows s.sessions (s.clear (t.todo.headD 0)).sessions :=
      Grows.map _ (Registry.finish_clientId _) (Registry.finish_object _)
    exact ⟨hclear.registry, hclear.answerable.set (hgoes hg) (Grows.refl _) rfl rfl rfl⟩
  · rw [if_neg hcounter]
    exact ⟨h.registry, h.answerable.set (hgoes (Grows.refl _)) (Grows.refl _) rfl rfl rfl⟩

theorem Kept.stepThread (h : s.Kept) (ht : s.threads[n]? = some t) {act : Act}
    (halive : s.alive = true) (hmeets : s.Meets (.thread n act)) :
    (s.stepThread n t act).Kept := by
  have hmem := mem_of_getElem? ht
  have hsound := h.answerable.threads t hmem
  cases act with
  | deliver isOk =>
    by_cases hphase : t.phase = .ready
    · rw [State.stepThread, if_pos hphase]
      exact h.deliver hmem (hmeets halive t ht hphase) isOk
    · rw [State.stepThread, if_neg hphase]
      exact h
  | note =>
    rw [State.stepThread]
    split
    · exact ⟨h.registry, h.answerable.set
        (t := { t with phase := .noted (s.counter (t.todo.headD 0)) })
        (hsound.of_todo rfl (List.Subset.refl _)) (Grows.refl _) rfl rfl rfl⟩
    · exact h
  | reset =>
    rw [State.stepThread]
    split
    · next counter hphase =>
      by_cases hreaders : s.readers = 0
      · rw [if_pos hreaders]
        exact h.reset hmem hphase (hmeets halive hreaders t ht)
      · rw [if_neg hreaders]
        exact h
    · exact h
  | relock =>
    rw [State.stepThread]
    split
    · exact ⟨h.registry, h.answerable.set
        (t := { t with todo := t.todo.tail, phase := .ready })
        (hsound.of_todo rfl (tail_subset _)) (Grows.refl _) rfl rfl rfl⟩
    · exact h
  | finish =>
    rw [State.stepThread]
    split
    · refine ⟨h.registry, h.answerable.pending, ?_, h.answerable.delivered⟩
      intro u hu
      exact h.answerable.threads u (mem_of_mem_eraseIdx hu)
    · exact h

/-- **One step.** -/
theorem Kept.step (h : s.Kept) {e : Event O} (hmeets : s.Meets e) : (s.step e).Kept := by
  unfold State.step
  by_cases halive : s.alive = false
  · rw [if_pos halive]
    exact h
  rw [if_neg halive]
  rw [Bool.not_eq_false] at halive
  cases e with
  | determineClientId object =>
    dsimp only
    split
    · exact h.determineClientId object
    · exact h
  | storeResponseFunctions =>
    dsimp only
    split
    · exact h.storeResponseFunctions
    · exact h
  | clearResponseFunctions clientId =>
    dsimp only
    split
    · next hguard => exact h.clearResponseFunctions hguard.1 clientId
    · exact h
  | dispatchRaw sender serial rilcReqId slotId known =>
    dsimp only
    split
    · exact h.dispatchRaw sender serial rilcReqId slotId known
    · exact h
  | onRequestComplete n responseLen => exact h.onRequestComplete n responseLen
  | onUnsolicitedResponse datalen => exact h.onUnsolicitedResponse datalen
  | thread n act =>
    dsimp only
    cases ht : s.threads[n]? with
    | none => exact h
    | some t => exact h.stepThread ht halive hmeets

/-! ## Whom a reset takes out -/

/-- The thread has the read lock. -/
def reads (t : Thread) : Bool := t.phase = .ready ∨ t.phase = .failed

/-- The client whose call failed has its callbacks, as long as its counter is the one that
was noted. -/
def Aware (s : State O) (t : Thread) : Prop :=
  match t.phase with
  | .failed => s.res (t.todo.headD 0) ≠ none
  | .noted counter => counter ≤ s.counter (t.todo.headD 0) ∧
      (counter = s.counter (t.todo.headD 0) → s.res (t.todo.headD 0) ≠ none)
  | _ => True

/-- **The read lock is accounted for**, where every caller took it. -/
structure Locked (s : State O) : Prop where
  locked : ∀ t ∈ s.threads, t.locked = true
  readers : s.readers = s.threads.countP reads
  aware : ∀ t ∈ s.threads, s.Aware t

/-- The callbacks of a number change only while nobody reads, and the counter with them. -/
theorem Locked.change (h : s.Locked) (hreaders : s.readers = 0) {entry : Option O}
    (hres : s'.res = Function.update s.res id entry)
    (hcounter : s'.counter = Function.update s.counter id (s.counter id + 1))
    (hs : s'.readers = s.readers ∧ s'.threads = s.threads) : s'.Locked := by
  refine ⟨hs.2 ▸ h.locked, by rw [hs.1, hs.2, h.readers], fun t ht => ?_⟩
  rw [hs.2] at ht
  have haware := h.aware t ht
  unfold Aware at haware ⊢
  cases hphase : t.phase with
  | failed =>
    have hpos := countP_pos_iff.mpr ⟨t, ht, show reads t = true by simp [reads, hphase]⟩
    rw [← h.readers, hreaders] at hpos
    exact absurd hpos (Nat.lt_irrefl 0)
  | noted counter =>
    simp only [hphase] at haware ⊢
    rw [hres, hcounter]
    by_cases hid : t.todo.headD 0 = id
    · rw [hid] at haware ⊢
      rw [Function.update_self]
      exact ⟨Nat.le_succ_of_le haware.1, fun heq => absurd haware.1 (by omega)⟩
    · rwa [Function.update_of_ne hid, Function.update_of_ne hid]
  | ready | relocking => trivial

/-- The threads are what they were, but for one at most. -/
theorem Locked.of_mem (h : s.Locked) (hs : s'.res = s.res ∧ s'.counter = s.counter) (u : Thread)
    (hmem : ∀ v ∈ s'.threads, v ∈ s.threads ∨ v = u ∧ u.locked = true ∧ s.Aware u)
    (hreaders : s'.readers = s'.threads.countP reads) : s'.Locked := by
  refine ⟨fun v hv => ?_, hreaders, fun v hv => ?_⟩
  · rcases hmem v hv with hold | ⟨rfl, hlocked, -⟩
    · exact h.locked v hold
    · exact hlocked
  · unfold Aware
    rw [hs.1, hs.2]
    rcases hmem v hv with hold | ⟨rfl, -, haware⟩
    · exact h.aware v hold
    · exact haware

/-- A thread goes on. -/
theorem Locked.move (h : s.Locked) (ht : s.threads[n]? = some t) {u : Thread}
    (hs : s'.res = s.res ∧ s'.counter = s.counter) (hthreads : s'.threads = s.threads.set n u)
    (hlocked : u.locked = t.locked)
    (hreaders : s'.readers + (reads t).toNat = s.readers + (reads u).toNat) (hu : s.Aware u) :
    s'.Locked := by
  have hcount := Threads.count_set ht reads u
  have hold := h.readers
  have hnew := hlocked.trans (h.locked t (mem_of_getElem? ht))
  refine h.of_mem hs u (fun v hv => ?_) (by rw [hthreads]; omega)
  rw [hthreads] at hv
  exact (mem_or_eq_of_mem_set hv).imp_right fun heq => ⟨heq, hnew, hu⟩

/-- A caller takes the lock. -/
theorem Locked.begin (h : s.Locked)
    (hs : s'.res = s.res ∧ s'.counter = s.counter ∧ s'.readers = s.readers + 1)
    {request : Option RequestInfo} {todo : List ℕ}
    (hthreads : s'.threads = s.threads ++ [⟨request, todo, true, .ready⟩]) : s'.Locked := by
  refine h.of_mem ⟨hs.1, hs.2.1⟩ ⟨request, todo, true, .ready⟩ (fun v hv => ?_) ?_
  · rw [hthreads] at hv
    exact (mem_append.mp hv).imp_right fun hnew => ⟨mem_singleton.mp hnew, rfl, trivial⟩
  · rw [hs.2.2, hthreads, Threads.count_begin, h.readers]
    rfl

theorem Locked.stepThread (h : s.Locked) (ht : s.threads[n]? = some t) (act : Act) :
    (s.stepThread n t act).Locked := by
  have haware := h.aware t (mem_of_getElem? ht)
  cases act with
  | deliver isOk =>
    rw [State.stepThread]
    split
    · next hphase =>
      unfold State.deliver
      have hreads : (reads t).toNat = 1 := by simp [reads, hphase]
      cases htodo : t.todo with
      | nil => exact h
      | cons id rest =>
        dsimp only
        cases hres : s.res id with
        | none =>
          dsimp only
          split
          · exact h.move ht ⟨rfl, rfl⟩ rfl rfl rfl (by simp [Aware, hphase])
          · exact ⟨h.locked, h.readers, h.aware⟩
        | some o =>
          refine h.move ht ⟨rfl, rfl⟩ rfl ?_ ?_ ?_
          all_goals cases isOk
          all_goals simp [reads, Aware, hphase, hres]
    · exact h
  | note =>
    rw [State.stepThread]
    split
    · next hphase =>
      have hreads : reads t = true := by simp [reads, hphase]
      have hpos := Threads.count_pos ht hreads
      rw [← h.readers] at hpos
      simp only [Aware, hphase] at haware
      refine h.move ht ⟨rfl, rfl⟩ rfl rfl ?_ ⟨Nat.le_refl _, fun _ => haware⟩
      rw [hreads]
      exact Nat.sub_add_cancel hpos
    · exact h
  | reset =>
    rw [State.stepThread]
    split
    · next counter hphase =>
      by_cases hreaders : s.readers = 0
      · rw [if_pos hreaders]
        have hmoved {s' : State O} (h' : s'.Locked) (hthreads : s'.threads = s.threads) :
            Locked { s' with threads := s'.threads.set n { t with phase := .relocking } } :=
          h'.move (t := t) (by rw [hthreads]; exact ht) ⟨rfl, rfl⟩ rfl rfl
            (by simp [reads, hphase]) trivial
        unfold State.reset
        dsimp only
        split
        · exact hmoved (h.change hreaders rfl rfl ⟨rfl, rfl⟩) rfl
        · exact hmoved h rfl
      · rw [if_neg hreaders]
        exact h
    · exact h
  | relock =>
    rw [State.stepThread]
    split
    · next hphase =>
      exact h.move ht ⟨rfl, rfl⟩ rfl rfl (by simp [reads, hphase, State.relock]) trivial
    · exact h
  | finish =>
    rw [State.stepThread]
    split
    · next hphase =>
      have hend := Threads.count_end ht reads
      have hreads : (reads t).toNat = 1 := by simp [reads, hphase.1]
      have hold := h.readers
      refine ⟨fun v hv => h.locked v (mem_of_mem_eraseIdx hv), ?_,
        fun v hv => h.aware v (mem_of_mem_eraseIdx hv)⟩
      simp only [State.finish, h.locked t (mem_of_getElem? ht), if_true]
      omega
    · exact h

/-- The request has an id, so that it is not answered at once, without the lock. -/
def Known : Event O → Prop
  | .dispatchRaw _ _ _ _ known => known = true
  | _ => True

theorem Locked.step (h : s.Locked) {e : Event O} (hknown : Known e) : (s.step e).Locked := by
  unfold State.step
  split
  · exact h
  cases e with
  | determineClientId object =>
    dsimp only
    split
    · exact ⟨h.locked, h.readers, h.aware⟩
    · exact h
  | storeResponseFunctions =>
    dsimp only
    split
    · next hreaders =>
      unfold State.storeResponseFunctions
      split
      · exact h
      · exact h.change hreaders rfl rfl ⟨rfl, rfl⟩
    · exact h
  | clearResponseFunctions clientId =>
    dsimp only
    split
    · next hguard =>
      unfold State.clearResponseFunctions
      split
      · exact h.change hguard.2 rfl rfl ⟨rfl, rfl⟩
      · exact h
    · exact h
  | dispatchRaw sender serial rilcReqId slotId known =>
    obtain rfl : known = true := hknown
    dsimp only
    split
    · unfold State.dispatchRaw
      split
      · exact h
      · dsimp only
        split
        · exact ⟨h.locked, h.readers, h.aware⟩
        · exact h
    · exact h
  | onRequestComplete n responseLen =>
    dsimp only [State.onRequestComplete]
    split
    · exact h
    · split
      · exact h.begin ⟨rfl, rfl, rfl⟩ rfl
      · exact h
  | onUnsolicitedResponse datalen => exact h.begin ⟨rfl, rfl, rfl⟩ rfl
  | thread n act =>
    dsimp only
    cases ht : s.threads[n]? with
    | none => exact h
    | some t => exact h.stepThread ht act

/-- **No reset takes out a client that is registering**: the number it would clear belongs to
a session that listens. -/
theorem Locked.mayReset (h : s.Locked) (hkept : s.Kept) (ht : t ∈ s.threads) : s.MayReset t := by
  intro hphase x hx hstage hid
  have haware := h.aware t ht
  simp only [Aware, hphase] at haware
  obtain ⟨o, hres⟩ := ne_none_iff_exists'.mp (haware.2 trivial)
  obtain ⟨y, hy, hlist, hyid, -⟩ := hkept.registry.listens _ o hres
  have hsame : x = y := hkept.registry.unique (mem_registered.mpr ⟨hx, by simp [hstage]⟩)
    (mem_registered.mpr ⟨hy, by simp [hlist]⟩) (hid.trans hyid.symm)
  rw [hsame, hlist] at hstage
  cases hstage

/-- **Only an error response puts a registration at risk**: in a run in which every request
has an id, the condition is one on the deliveries. -/
theorem throughout_meets (events : List (Event O))
    (h : Run.Throughout State.step
      (fun s e => Known e ∧ ∀ n isOk, e = .thread n (.deliver isOk) → s.Meets e) initial events) :
    Run.Throughout State.step Meets initial events := by
  have hmeets (s : State O) (e : Event O) (hs : s.Kept ∧ s.Locked)
      (he : Known e ∧ ∀ n isOk, e = .thread n (.deliver isOk) → s.Meets e) : s.Meets e := by
    cases e with
    | thread n act =>
      cases act with
      | deliver isOk => exact he.2 n isOk rfl
      | reset => exact fun _ _ t ht => hs.2.mayReset hs.1 (mem_of_getElem? ht)
      | note | relock | finish => trivial
    | _ => trivial
  exact Run.Throughout.of_invariant
    (fun s e hs he => ⟨hs.1.step (hmeets s e hs he), hs.2.step he.1⟩) hmeets
    ⟨kept_initial, by simp [initial], rfl, by simp [initial]⟩ h

/-- **Responses go only to the session that asked**, in every run in which no request
outlives its session while the number is given to another one. -/
theorem always_lawful (events : List (Event O))
    (h : Run.Throughout State.step Meets initial events) :
    Run.Always State.step Lawful initial events :=
  (Run.Always.of_invariant (P := Kept) (fun _ _ hs hmeets => hs.step hmeets) kept_initial h).mono
    fun _ hs => hs.lawful

/-- A request whose session lasts until it is answered, and one to a client that is gone. -/
theorem always_lawful_run :
    Run.Always State.step Lawful (initial : State ℕ)
      [.determineClientId 7, .storeResponseFunctions, .dispatchRaw 0 1 2 0 true,
        .dispatchRaw 0 2 2 0 true, .onRequestComplete 0 10, .thread 0 (.deliver false),
        .thread 0 .note, .thread 0 .reset, .thread 0 .relock, .thread 0 .finish] :=
  always_lawful _ (by decide +kernel)

/-- **A response reaches another client**: the first one is cleared while its request is
pending, and the second one gets its number. -/
theorem not_always_lawful :
    ¬ ∀ events : List (Event ℕ), Run.Always State.step Lawful initial events := by
  intro h
  have hlast := (h [.determineClientId 7, .storeResponseFunctions, .dispatchRaw 0 1 2 0 true,
    .clearResponseFunctions 0, .determineClientId 8, .storeResponseFunctions,
    .onRequestComplete 0 10, .thread 0 (.deliver true)]).last.toSender
    (⟨1, 0, 2, 0, true, 0⟩, 8) (by decide +kernel)
  obtain ⟨x, hx, hobject⟩ := hlast
  have hseven : (⟨0, 7, .over⟩ : Session ℕ) = x := some.inj hx
  rw [← hseven] at hobject
  exact absurd hobject (by decide)

end State

end ExynosVendor.Ril.External.Sessions
