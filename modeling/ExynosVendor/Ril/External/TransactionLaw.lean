import ExynosVendor.Ril.External.Transactions

/-!
# What the transactions keep

Three things are kept. The handlers that were called were called once and told the right
(`Answers`). A record is one send's, which was not answered, and what the client calls when the
service has died is no record any more (`Table`). And everything under way has its own record,
while a record without anything under way waits for a death to be handled (`Carried`). Requests,
entries and responses are one list of tickets for this: a ticket goes from the first to the second
to the third, and leaves with its record.
-/

namespace ExynosVendor.Ril.External.Transactions

open State
open List Option

/-! ## The loop and the lists -/

variable {n : ℕ} {r : Record}

/-- The record that `RILC_Send` takes is free. -/
theorem findFree_spec {records : ℕ → Option Record} {last transaction : ℕ}
    (hlast : last < rilcTransactionMax) (h : findFree records n last = some transaction) :
    records transaction = none ∧ transaction < rilcTransactionMax := by
  induction n generalizing last with
  | zero => cases h
  | succ n ih =>
    rw [findFree] at h
    split at h
    · next hfree =>
      rw [← some.inj h]
      exact ⟨hfree, hlast⟩
    · exact ih (Nat.mod_lt _ (by decide)) h

theorem perm_eraseIdx {α : Type} {l : List α} {x : α} (h : l[n]? = some x) :
    (x :: l.eraseIdx n).Perm l := by
  obtain ⟨hlt, rfl⟩ := List.getElem?_eq_some_iff.mp h
  exact getElem_cons_eraseIdx_perm hlt

variable {s s' : State}

theorem mem_used :
    r ∈ s.used ↔ ∃ i, i < rilcTransactionMax ∧ s.records i = some r := by
  rw [used, mem_filterMap]
  simp only [mem_range]

/-! ## What is kept -/

/-- **The calls of the handlers.** -/
structure Answers (s : State) : Prop where
  once : (s.called.map Called.send).Nodup
  right : ∀ c ∈ s.called, s.sends[c.send]? = some ⟨c.msgId, c.slotId, true⟩ ∧ c.length = c.size
  own : ∀ x ∈ s.completed, x.1 = x.2

/-- **The records**, in the table or taken out of it for their handlers. -/
structure Table (s : State) : Prop where
  last : s.last < rilcTransactionMax
  sent : ∀ i r, s.records i = some r → i < rilcTransactionMax ∧
    s.sends[r.send]? = some ⟨r.msgId, r.slotId, r.handler⟩
  fresh : ∀ i r, s.records i = some r → r.send ∉ s.called.map Called.send
  inj : ∀ i j r x, s.records i = some r → s.records j = some x → r.send = x.send → i = j
  waits : ∀ r ∈ s.waiting, s.sends[r.send]? = some ⟨r.msgId, r.slotId, r.handler⟩ ∧
    r.send ∉ s.called.map Called.send ∧ ∀ i x, s.records i = some x → x.send ≠ r.send
  waitsOnce : (s.waiting.map Record.send).Nodup
  account : ∀ send x, s.sends[send]? = some x → x.handler = true →
    send ∈ s.called.map Called.send ∨ (∃ i r, s.records i = some r ∧ r.send = send) ∨
      ∃ r ∈ s.waiting, r.send = send

/-- **What is under way**, and what the service and the proxy are in the meantime. -/
structure Carried (s : State) : Prop where
  nodup : (s.tickets.map Ticket.send).Nodup
  held : ∀ t ∈ s.tickets, ∃ h, s.records t.serial = some ⟨t.msgId, t.slotId, h, t.send⟩
  served : ∀ i r, s.records i = some r → r.handler = true →
    s.death = .died ∨ ∃ t ∈ s.tickets, t.send = r.send
  sized : ∀ r ∈ s.responses, r.length = r.size
  down : s.death = .died → s.requests = [] ∧ s.pending = [] ∧ s.up = false
  proxied : s.death ≠ .over → s.proxy = true

/-- **All of it.** -/
structure Kept (s : State) : Prop where
  answers : Answers s
  table : Table s
  carried : Carried s

theorem Kept.serial_eq (h : Kept s) {t : Ticket} (ht : t ∈ s.tickets) {i : ℕ}
    (hr : s.records i = some r) (hsend : t.send = r.send) : t.serial = i ∧ t.msgId = r.msgId := by
  obtain ⟨b, hb⟩ := h.carried.held t ht
  have hi := h.table.inj t.serial i _ r hb hr hsend
  rw [hi, hr] at hb
  rw [some.inj hb]
  exact ⟨hi, rfl⟩

/-- **What is kept is the law.** -/
theorem Kept.lawful (h : Kept s) : s.Lawful where
  once := h.answers.once
  right := h.answers.right
  settled := by
    intro c hc
    have hin : c.send ∈ s.called.map Called.send := mem_map_of_mem hc
    have hfresh : ∀ i r, s.records i = some r → r.send ≠ c.send := by
      intro i r hr heq
      exact h.table.fresh i r hr (heq ▸ hin)
    refine ⟨hfresh, ?_⟩
    intro p hp
    have ht : p.ticket ∈ s.tickets := by
      refine mem_append_left _ (mem_append_right _ ?_)
      exact mem_map_of_mem hp
    obtain ⟨b, hb⟩ := h.carried.held p.ticket ht
    exact hfresh _ _ hb
  answered := by
    intro send x hx hhandler
    rcases h.table.account send x hx hhandler with hcalled | ⟨i, r, hr, hsend⟩ | hwait
    · exact Or.inl hcalled
    · refine Or.inr (Or.inr ⟨i, r, hr, hsend, ?_⟩)
      have hsame := (h.table.sent i r hr).2.symm.trans (hsend ▸ hx)
      rcases h.carried.served i r hr ((congrArg Sent.handler (some.inj hsame)).trans hhandler)
        with hdied | ⟨t, ht, heq⟩
      · exact Or.inl hdied
      · obtain ⟨hserial, hmsg⟩ := h.serial_eq ht hr heq
        exact Or.inr ⟨t, ht, hserial, hmsg, heq.trans hsend⟩
    · exact Or.inr (Or.inl hwait)
  own := h.answers.own

theorem kept_initial (clientId : ℤ) : Kept (initial clientId) where
  answers := ⟨nodup_nil, fun _ h => absurd h not_mem_nil,
    fun _ h => absurd h not_mem_nil⟩
  table := by
    refine ⟨Nat.zero_lt_succ _, ?_, ?_, ?_, ?_, nodup_nil, ?_⟩ <;> intros <;>
      simp_all [initial, waiting]
  carried := by
    refine ⟨nodup_nil, ?_, ?_, ?_, ?_, fun _ => rfl⟩ <;> intros <;> simp_all [initial, tickets]

/-! ## Steps that leave the table alone -/

/-- **The tickets change places**, and nothing else changes. -/
theorem Kept.frame (h : Kept s) (hcalled : s'.called = s.called)
    (hcompleted : s'.completed = s.completed) (hsends : s'.sends = s.sends)
    (hrecords : s'.records = s.records) (hlast : s'.last = s.last) (hdeath : s'.death = s.death)
    (htickets : s'.tickets.Perm s.tickets) (hsized : ∀ r ∈ s'.responses, r.length = r.size)
    (hdown : s.death = .died → s'.requests = [] ∧ s'.pending = [] ∧ s'.up = false)
    (hproxy : s.proxy = true → s'.proxy = true) : Kept s' := by
  have hwaiting : s'.waiting = s.waiting := by rw [waiting, waiting, hdeath]
  refine ⟨⟨?_, ?_, ?_⟩, ⟨?_, ?_, ?_, ?_, ?_, ?_, ?_⟩, ⟨?_, ?_, ?_, hsized, ?_, ?_⟩⟩
  · rw [hcalled]
    exact h.answers.once
  · rw [hcalled, hsends]
    exact h.answers.right
  · rw [hcompleted]
    exact h.answers.own
  · rw [hlast]
    exact h.table.last
  · rw [hrecords, hsends]
    exact h.table.sent
  · rw [hrecords, hcalled]
    exact h.table.fresh
  · rw [hrecords]
    exact h.table.inj
  · rw [hwaiting, hsends, hcalled, hrecords]
    exact h.table.waits
  · rw [hwaiting]
    exact h.table.waitsOnce
  · rw [hsends, hcalled, hrecords, hwaiting]
    exact h.table.account
  · exact (htickets.map Ticket.send).nodup_iff.mpr h.carried.nodup
  · intro t ht
    rw [hrecords]
    exact h.carried.held t (htickets.mem_iff.mp ht)
  · intro i r hr hhandler
    rw [hrecords] at hr
    rw [hdeath]
    rcases h.carried.served i r hr hhandler with hdied | ⟨t, ht, heq⟩
    · exact Or.inl hdied
    · exact Or.inr ⟨t, htickets.mem_iff.mpr ht, heq⟩
  · rw [hdeath]
    exact hdown
  · rw [hdeath]
    exact fun hover => hproxy (h.carried.proxied hover)

/-- **Connecting**: only a client without a proxy does, and it has handled the death. -/
theorem Kept.connect (h : Kept s) (hproxy : s.proxy = false) (clientId : ℤ) :
    Kept (s.connect clientId) := by
  refine h.frame rfl rfl rfl rfl rfl rfl (List.Perm.refl _) h.carried.sized ?_ fun _ => rfl
  intro hdied
  have htrue := h.carried.proxied (by rw [hdied]; exact fun hover => by cases hover)
  rw [hproxy] at htrue
  cases htrue

/-- **A send begins.** -/
theorem Kept.rilcSend (h : Kept s) (msgId length channel : ℕ) (handler : Bool)
    (service : Option ℤ) : Kept (s.rilcSend msgId length channel handler service) := by
  have hproxy : ∀ x, (if s.proxy then some s else service.map s.connect) = some x → Kept x := by
    intro x hx
    split at hx
    · rw [← some.inj hx]
      exact h
    · next hfalse =>
      obtain ⟨clientId, -, rfl⟩ := map_eq_some_iff.mp hx
      exact h.connect (Bool.not_eq_true _ ▸ hfalse) clientId
  unfold State.rilcSend
  generalize (if s.proxy then some s else service.map s.connect) = o at hproxy
  cases o with
  | none => exact h
  | some x =>
    have hx := hproxy x rfl
    dsimp only
    split
    · exact hx.frame rfl rfl rfl rfl rfl rfl (List.Perm.refl _) hx.carried.sized hx.carried.down
        fun hp => hp
    · exact hx

/-- **A request comes to the service.** -/
theorem Kept.dispatchRaw (h : Kept s) {r : Request} (hr : s.requests[n]? = some r)
    {allocated : Bool}
    (hmeets : (allocated = true ∧ 0 ≤ r.clientId ∧ r.clientId < Sessions.radioExternalClientNum) ∧
      within rilOemReqIds r.ticket.msgId = true) :
    Kept (s.dispatchRaw n r allocated) := by
  unfold State.dispatchRaw
  rw [if_pos hmeets.1, if_pos hmeets.2]
  refine h.frame rfl rfl rfl rfl rfl rfl ?_ h.carried.sized ?_ fun hp => hp
  · have hperm := (perm_eraseIdx hr).map Request.ticket
    exact Perm.append_right _ (perm_middle.trans (Perm.append_right _ hperm))
  · intro hdied
    rw [(h.carried.down hdied).1] at hr
    cases hr

theorem responseSize_eq {msgId : ℕ} {response : Bool} {responseLen : ℕ}
    (h : responseLen = 0 ∨ (response = true ∧ availableNetworks msgId = false)) :
    responseLen = responseSize msgId response responseLen := by
  unfold responseSize
  rcases h with rfl | ⟨rfl, hraw⟩
  · simp only [Nat.zero_div, Nat.mul_zero, ite_self]
  · rw [hraw]
    rfl

/-- **The vendor completes a request.** -/
theorem Kept.onRequestComplete (h : Kept s) {p : RequestInfo} (hp : s.pending[n]? = some p)
    (e : RilErrno) {response : Bool} {responseLen : ℕ}
    (hmeets : responseLen = 0 ∨ (response = true ∧ availableNetworks p.ticket.msgId = false)) :
    Kept (s.onRequestComplete n p e response responseLen) := by
  have hdown : s.death ≠ .died := by
    intro hdied
    rw [(h.carried.down hdied).2.1] at hp
    cases hp
  unfold State.onRequestComplete
  split
  · refine h.frame rfl rfl rfl rfl rfl rfl ?_ ?_ (fun hdied => absurd hdied hdown) fun hp => hp
    · have hperm := (perm_eraseIdx hp).map RequestInfo.ticket
      simp only [tickets, filter_append, map_append, ← append_assoc]
      refine (perm_append_singleton _ _).trans ?_
      exact Perm.append_right _ (perm_middle.symm.trans (Perm.append_left _ hperm))
    · intro r hr
      rcases mem_append.mp hr with hold | hnew
      · exact h.carried.sized r hold
      · rw [mem_singleton.mp hnew]
        exact responseSize_eq hmeets
  · next hlong =>
    split
    · next hnetworks =>
      rcases hmeets with rfl | ⟨-, hraw⟩
      · exact absurd (Nat.zero_le _) hlong
      · rw [hraw] at hnetworks
        cases hnetworks
    · exact h

/-! ## A record is taken -/

/-- `s'` has a record more than `s`, which is of the next send. -/
structure Takes (s s' : State) (transaction : ℕ) (x : Sent) : Prop where
  free : s.records transaction = none
  bound : transaction < rilcTransactionMax
  records : s'.records = Function.update s.records transaction
    (some ⟨x.msgId, x.channel, x.handler, s.sends.length⟩)
  sends : s'.sends = s.sends ++ [x]
  called : s'.called = s.called
  death : s'.death = s.death

section Takes

variable {transaction : ℕ} {x : Sent}

theorem Takes.self (h : Takes s s' transaction x) :
    s'.records transaction = some ⟨x.msgId, x.channel, x.handler, s.sends.length⟩ := by
  rw [h.records, Function.update_self]

theorem Takes.other (h : Takes s s' transaction x) {i : ℕ} {r : Record}
    (hr : s.records i = some r) : s'.records i = some r := by
  have hi : i ≠ transaction := by
    rintro rfl
    rw [h.free] at hr
    cases hr
  rw [h.records, Function.update_of_ne hi]
  exact hr

theorem Takes.cases (h : Takes s s' transaction x) {i : ℕ} {r : Record}
    (hr : s'.records i = some r) : (i ≠ transaction ∧ s.records i = some r) ∨
      (i = transaction ∧ r = ⟨x.msgId, x.channel, x.handler, s.sends.length⟩) := by
  by_cases hi : i = transaction
  · rw [hi, h.self] at hr
    exact Or.inr ⟨hi, (some.inj hr).symm⟩
  · rw [h.records, Function.update_of_ne hi] at hr
    exact Or.inl ⟨hi, hr⟩

theorem Takes.sent (h : Takes s s' transaction x) {send : ℕ} {y : Sent}
    (hy : s.sends[send]? = some y) : send < s.sends.length ∧ s'.sends[send]? = some y := by
  obtain ⟨hin, -⟩ := List.getElem?_eq_some_iff.mp hy
  rw [h.sends]
  exact ⟨hin, (getElem?_append_left hin).trans hy⟩

theorem Takes.waiting (h : Takes s s' transaction x) : s'.waiting = s.waiting := by
  rw [State.waiting, State.waiting, h.death]

theorem Answers.take (ha : Answers s) (h : Takes s s' transaction x)
    (hcompleted : s'.completed = s.completed) : Answers s' := by
  refine ⟨?_, ?_, ?_⟩
  · rw [h.called]
    exact ha.once
  · rw [h.called]
    intro c hc
    obtain ⟨hsent, hlength⟩ := ha.right c hc
    exact ⟨(h.sent hsent).2, hlength⟩
  · rw [hcompleted]
    exact ha.own

theorem Table.take (ht : Table s) (ha : Answers s) (h : Takes s s' transaction x)
    (hlast : s'.last < rilcTransactionMax) : Table s' := by
  have hrecordLt : ∀ {i : ℕ} {r : Record}, s.records i = some r → r.send < s.sends.length :=
    fun hr => (h.sent (ht.sent _ _ hr).2).1
  refine ⟨hlast, ?_, ?_, ?_, ?_, ?_, ?_⟩
  · intro i r hr
    rcases h.cases hr with ⟨-, hr⟩ | ⟨rfl, rfl⟩
    · obtain ⟨hi, hsent⟩ := ht.sent i r hr
      exact ⟨hi, (h.sent hsent).2⟩
    · refine ⟨h.bound, ?_⟩
      rw [h.sends, getElem?_append_right (Nat.le_refl _), Nat.sub_self]
      rfl
  · intro i r hr hin
    rw [h.called] at hin
    rcases h.cases hr with ⟨-, hr⟩ | ⟨rfl, rfl⟩
    · exact ht.fresh i r hr hin
    -- nobody was told about a send that was not made yet
    · obtain ⟨c, hc, hsend⟩ := List.mem_map.mp hin
      have hbound := (h.sent (ha.right c hc).1).1
      rw [hsend] at hbound
      exact Nat.lt_irrefl _ hbound
  · intro i j r y hr hy hsend
    rcases h.cases hr with ⟨hi, hr⟩ | ⟨hi, rfl⟩ <;> rcases h.cases hy with ⟨hj, hy⟩ | ⟨hj, rfl⟩
    · exact ht.inj i j r y hr hy hsend
    · have hbound := hrecordLt hr
      rw [hsend] at hbound
      exact absurd hbound (Nat.lt_irrefl _)
    · have hbound := hrecordLt hy
      rw [← hsend] at hbound
      exact absurd hbound (Nat.lt_irrefl _)
    · rw [hi, hj]
  · intro r hr
    rw [h.waiting] at hr
    obtain ⟨hsent, hfresh, hout⟩ := ht.waits r hr
    rw [h.called]
    refine ⟨(h.sent hsent).2, hfresh, ?_⟩
    intro i y hy
    rcases h.cases hy with ⟨-, hy⟩ | ⟨-, rfl⟩
    · exact hout i y hy
    · exact (Nat.ne_of_lt (h.sent hsent).1).symm
  · rw [h.waiting]
    exact ht.waitsOnce
  · intro send y hy hhandler
    rw [h.called, h.waiting]
    rw [h.sends] at hy
    rcases Nat.lt_or_ge send s.sends.length with hbound | hbound
    · rw [getElem?_append_left hbound] at hy
      rcases ht.account send y hy hhandler with hdone | ⟨i, r, hr, heq⟩ | hwait
      · exact Or.inl hdone
      · exact Or.inr (Or.inl ⟨i, r, h.other hr, heq⟩)
      · exact Or.inr (Or.inr hwait)
    -- it is this send
    · have hend := (List.getElem?_eq_some_iff.mp hy).1
      rw [length_append, length_singleton] at hend
      refine Or.inr (Or.inl ⟨transaction, _, h.self, ?_⟩)
      show s.sends.length = send
      omega

/-- The request goes to the service, or it is lost, which is dead then. -/
theorem Carried.take (hc : Carried s) (ht : Table s) (h : Takes s s' transaction x)
    (htickets : s'.tickets.Perm (⟨transaction, x.msgId, x.channel, s.sends.length⟩ :: s.tickets)
      ∨ (s.death = .died ∧ s'.tickets = s.tickets))
    (hsized : ∀ r ∈ s'.responses, r.length = r.size)
    (hdown : s.death = .died → s'.requests = [] ∧ s'.pending = [] ∧ s'.up = false)
    (hproxy : s'.proxy = s.proxy) : Carried s' := by
  have hkeeps : ∀ t ∈ s.tickets, t ∈ s'.tickets := by
    intro t hin
    rcases htickets with hperm | ⟨-, heq⟩
    · exact hperm.mem_iff.mpr (mem_cons_of_mem _ hin)
    · rw [heq]
      exact hin
  have hheld : ∀ t ∈ s.tickets,
      ∃ b, s'.records t.serial = some ⟨t.msgId, t.slotId, b, t.send⟩ := by
    intro t hin
    obtain ⟨b, hb⟩ := hc.held t hin
    exact ⟨b, h.other hb⟩
  refine ⟨?_, ?_, ?_, hsized, ?_, ?_⟩
  · rcases htickets with hperm | ⟨-, heq⟩
    · rw [(hperm.map Ticket.send).nodup_iff, map_cons, nodup_cons]
      refine ⟨?_, hc.nodup⟩
      -- a ticket that was there is of a send that was made
      intro hin
      obtain ⟨t, hold, hsend⟩ := List.mem_map.mp hin
      obtain ⟨b, hb⟩ := hc.held t hold
      have hbound := (h.sent (ht.sent _ _ hb).2).1
      rw [show t.send = s.sends.length from hsend] at hbound
      exact Nat.lt_irrefl _ hbound
    · rw [heq]
      exact hc.nodup
  · intro t hin
    rcases htickets with hperm | ⟨-, heq⟩
    · rcases mem_cons.mp (hperm.mem_iff.mp hin) with rfl | hold
      · exact ⟨x.handler, h.self⟩
      · exact hheld t hold
    · rw [heq] at hin
      exact hheld t hin
  · intro i r hr hhandler
    rw [h.death]
    rcases h.cases hr with ⟨-, hr⟩ | ⟨-, rfl⟩
    · rcases hc.served i r hr hhandler with hdied | ⟨t, hin, heq⟩
      · exact Or.inl hdied
      · exact Or.inr ⟨t, hkeeps t hin, heq⟩
    · rcases htickets with hperm | ⟨hdied, -⟩
      · exact Or.inr ⟨_, hperm.mem_iff.mpr mem_cons_self, rfl⟩
      · exact Or.inl hdied
  · rw [h.death]
    exact hdown
  · rw [h.death, hproxy]
    exact hc.proxied

end Takes

/-- **A send takes its record.** -/
theorem Kept.allocate (h : Kept s) {x : Sending}
    (hmeets : (x.service = s.service ∧ s.up = true) ∨ s.death = .died) :
    Kept (s.allocate n x) := by
  unfold State.allocate
  dsimp only
  cases hfind : findFree s.records rilcTransactionMax s.last with
  | none =>
    exact h.frame rfl rfl rfl rfl rfl rfl (List.Perm.refl _) h.carried.sized h.carried.down
      fun hp => hp
  | some transaction =>
    obtain ⟨hfree, hlt⟩ := findFree_spec h.table.last hfind
    dsimp only
    generalize hs' : State.mk _ _ _ _ _ _ _ _ _ _ _ _ _ _ = s'
    have htakes : Takes s s' transaction ⟨x.msgId, x.channel, x.handler⟩ :=
      ⟨hfree, hlt, hs' ▸ rfl, hs' ▸ rfl, hs' ▸ rfl, hs' ▸ rfl⟩
    refine ⟨h.answers.take htakes (hs' ▸ rfl), h.table.take h.answers htakes ?_,
      h.carried.take h.table htakes ?_ ?_ ?_ (hs' ▸ rfl)⟩
    · rw [← hs']
      exact Nat.mod_lt _ (by decide)
    · rw [← hs']
      by_cases hservice : x.service = s.service ∧ s.up = true
      · refine Or.inl ?_
        simp only [tickets]
        rw [if_pos hservice, map_append]
        simp only [map_cons, map_nil, append_assoc]
        exact perm_middle
      · refine Or.inr ⟨hmeets.resolve_left hservice, ?_⟩
        simp only [tickets]
        rw [if_neg hservice]
    · rw [← hs']
      exact h.carried.sized
    · intro hdied
      obtain ⟨hrequests, hpending, hup⟩ := h.carried.down hdied
      rw [← hs']
      refine ⟨?_, hpending, hup⟩
      dsimp only
      rw [if_neg (by rw [hup]; exact fun hs => Bool.false_ne_true hs.2)]
      exact hrequests

/-! ## A record is completed -/

/-- The response `r` takes its record out of `s`, and tells its handler, if there is one. -/
structure Completes (s s' : State) (r : Response) (b : Bool) : Prop where
  record : s.records r.ticket.serial = some ⟨r.ticket.msgId, r.ticket.slotId, b, r.ticket.send⟩
  records : s'.records = Function.update s.records r.ticket.serial none
  called : s'.called = if b then
    ⟨r.ticket.send, r.ticket.msgId, convertToRilcErrorNo r.error, r.length, r.size,
      r.ticket.slotId⟩ :: s.called else s.called
  sends : s'.sends = s.sends
  death : s'.death = s.death

section Completes

variable {r : Response} {b : Bool}

theorem Completes.cases (h : Completes s s' r b) (ht : Table s) {i : ℕ} {x : Record}
    (hx : s'.records i = some x) : s.records i = some x ∧ x.send ≠ r.ticket.send := by
  have hi : i ≠ r.ticket.serial := by
    rintro rfl
    rw [h.records, Function.update_self] at hx
    cases hx
  rw [h.records, Function.update_of_ne hi] at hx
  exact ⟨hx, fun heq => hi (ht.inj _ _ _ _ hx h.record heq)⟩

theorem Completes.told (h : Completes s s' r b) {send : ℕ}
    (hsend : send ∈ s'.called.map Called.send) :
    send = r.ticket.send ∨ send ∈ s.called.map Called.send := by
  rw [h.called] at hsend
  split at hsend
  · exact mem_cons.mp hsend
  · exact Or.inr hsend

theorem Completes.keeps (h : Completes s s' r b) {send : ℕ}
    (hsend : send ∈ s.called.map Called.send) : send ∈ s'.called.map Called.send := by
  rw [h.called]
  split
  · exact mem_cons_of_mem _ hsend
  · exact hsend

theorem Completes.waiting (h : Completes s s' r b) : s'.waiting = s.waiting := by
  rw [State.waiting, State.waiting, h.death]

theorem Answers.complete (ha : Answers s) (ht : Table s) (h : Completes s s' r b)
    (hsize : r.length = r.size)
    (hcompleted : s'.completed = (r.ticket.send, r.ticket.send) :: s.completed) : Answers s' := by
  refine ⟨?_, ?_, ?_⟩
  · rw [h.called]
    split
    · rw [map_cons, nodup_cons]
      exact ⟨ht.fresh _ _ h.record, ha.once⟩
    · exact ha.once
  · intro c hc
    rw [h.called] at hc
    rw [h.sends]
    split at hc
    · next hb =>
      rcases mem_cons.mp hc with rfl | hold
      · obtain ⟨-, hsent⟩ := ht.sent _ _ h.record
        rw [hb] at hsent
        exact ⟨hsent, hsize⟩
      · exact ha.right c hold
    · exact ha.right c hc
  · intro x hx
    rw [hcompleted] at hx
    rcases mem_cons.mp hx with rfl | hold
    · rfl
    · exact ha.own x hold

theorem Table.complete (ht : Table s) (h : Completes s s' r b) (hlast : s'.last = s.last) :
    Table s' := by
  refine ⟨hlast ▸ ht.last, ?_, ?_, ?_, ?_, ?_, ?_⟩
  · intro i x hx
    rw [h.sends]
    exact ht.sent i x (h.cases ht hx).1
  · intro i x hx hdone
    obtain ⟨hx, hne⟩ := h.cases ht hx
    rcases h.told hdone with heq | hold
    · exact hne heq
    · exact ht.fresh i x hx hold
  · intro i j x y hx hy
    exact ht.inj i j x y (h.cases ht hx).1 (h.cases ht hy).1
  · intro x hx
    rw [h.waiting] at hx
    obtain ⟨hxsent, hxfresh, hout⟩ := ht.waits x hx
    rw [h.sends]
    refine ⟨hxsent, ?_, fun i y hy => hout i y (h.cases ht hy).1⟩
    intro hdone
    rcases h.told hdone with heq | hold
    · exact hout _ _ h.record heq.symm
    · exact hxfresh hold
  · rw [h.waiting]
    exact ht.waitsOnce
  · intro send x hx hhandler
    rw [h.sends] at hx
    rw [h.waiting]
    rcases ht.account send x hx hhandler with hdone | ⟨i, y, hy, heq⟩ | hwait
    · exact Or.inl (h.keeps hdone)
    · by_cases hi : i = r.ticket.serial
      · rw [hi, h.record] at hy
        rw [← some.inj hy] at heq
        obtain ⟨-, hsent⟩ := ht.sent _ _ h.record
        -- the handler of the record is the handler of the send
        have hb : b = true := by
          rw [← show r.ticket.send = send from heq, hsent] at hx
          rw [← some.inj hx] at hhandler
          exact hhandler
        rw [h.called, hb]
        exact Or.inl (List.mem_map.mpr ⟨_, mem_cons_self, heq⟩)
      · refine Or.inr (Or.inl ⟨i, y, ?_, heq⟩)
        rw [h.records, Function.update_of_ne hi]
        exact hy
    · exact Or.inr (Or.inr hwait)

/-- The ticket goes with the record. -/
theorem Carried.complete (hc : Carried s) (ht : Table s) (h : Completes s s' r b)
    (htickets : s.tickets.Perm (r.ticket :: s'.tickets)) (hrequests : s'.requests = s.requests)
    (hpending : s'.pending = s.pending) (hup : s'.up = s.up) (hproxy : s'.proxy = s.proxy)
    (hsized : ∀ x ∈ s'.responses, x.length = x.size) : Carried s' := by
  have hnodup := ((htickets.map Ticket.send).nodup_iff).mp hc.nodup
  rw [map_cons, nodup_cons] at hnodup
  refine ⟨hnodup.2, ?_, ?_, hsized, ?_, ?_⟩
  · intro t hin
    obtain ⟨c, hrecord⟩ := hc.held t (htickets.mem_iff.mpr (mem_cons_of_mem _ hin))
    refine ⟨c, ?_⟩
    rw [h.records, Function.update_of_ne, hrecord]
    -- with the serial of the response it would have its send, and no two tickets have
    intro heq
    rw [heq, h.record] at hrecord
    refine hnodup.1 (List.mem_map.mpr ⟨t, hin, ?_⟩)
    exact (congrArg Record.send (some.inj hrecord)).symm
  · intro i x hx hhandler
    obtain ⟨hold, hne⟩ := h.cases ht hx
    rw [h.death]
    rcases hc.served i x hold hhandler with hdied | ⟨t, hin, heq⟩
    · exact Or.inl hdied
    · rcases mem_cons.mp (htickets.mem_iff.mp hin) with rfl | hrest
      · exact absurd heq.symm hne
      · exact Or.inr ⟨t, hrest, heq⟩
  · rw [h.death, hrequests, hpending, hup]
    exact hc.down
  · rw [h.death, hproxy]
    exact hc.proxied

/-- **A response completes its record.** -/
theorem Kept.complete (h : Kept s) (hc : Completes s s' r b) (hsize : r.length = r.size)
    (hcompleted : s'.completed = (r.ticket.send, r.ticket.send) :: s.completed)
    (hlast : s'.last = s.last) (htickets : s.tickets.Perm (r.ticket :: s'.tickets))
    (hrequests : s'.requests = s.requests) (hpending : s'.pending = s.pending)
    (hup : s'.up = s.up) (hproxy : s'.proxy = s.proxy)
    (hsized : ∀ x ∈ s'.responses, x.length = x.size) : Kept s' where
  answers := h.answers.complete h.table hc hsize hcompleted
  table := h.table.complete hc hlast
  carried := h.carried.complete h.table hc htickets hrequests hpending hup hproxy hsized

end Completes

/-- **A response comes to the client.** -/
theorem Kept.answer (h : Kept s) {r : Response} (hr : s.responses[n]? = some r)
    (hmeets : r.late = true → ∀ x ∈ s.records r.ticket.serial, x.msgId ≠ r.ticket.msgId) :
    Kept ({ s with responses := s.responses.eraseIdx n }.answer r) := by
  have hperm := perm_eraseIdx hr
  have hsized : ∀ x ∈ s.responses.eraseIdx n, x.length = x.size :=
    fun x hx => h.carried.sized x (mem_of_mem_eraseIdx hx)
  cases hlate : r.late with
  | true =>
    have hsame : ({ s with responses := s.responses.eraseIdx n } : State).answer r =
        { s with responses := s.responses.eraseIdx n } := by
      unfold State.answer
      dsimp only
      cases hrecord : s.records r.ticket.serial with
      | none => rfl
      | some x => exact if_neg (hmeets hlate x hrecord)
    rw [hsame]
    refine h.frame rfl rfl rfl rfl rfl rfl ?_ hsized h.carried.down fun hp => hp
    have hrest := (hperm.filter fun r => !r.late).map Response.ticket
    rw [filter_cons_of_neg (by rw [hlate]; exact Bool.false_ne_true)] at hrest
    exact Perm.append_left _ hrest
  | false =>
    have htickets : s.tickets.Perm
        (r.ticket :: ({ s with responses := s.responses.eraseIdx n } : State).tickets) := by
      have hrest := (hperm.filter fun r => !r.late).map Response.ticket
      rw [filter_cons_of_pos (by rw [hlate]; rfl), map_cons] at hrest
      exact (Perm.append_left _ hrest.symm).trans perm_middle
    obtain ⟨b, hb⟩ := h.carried.held r.ticket (htickets.mem_iff.mpr mem_cons_self)
    have hsize := h.carried.sized r (mem_of_getElem? hr)
    unfold State.answer
    dsimp only
    rw [hb]
    dsimp only
    rw [if_pos rfl]
    exact h.complete ⟨hb, rfl, rfl, rfl, rfl⟩ hsize rfl rfl htickets rfl rfl rfl rfl hsized

/-! ## The service dies -/

/-- **The service dies**, and every record waits for what the client does about it. -/
theorem Kept.die (h : Kept s) (hdeath : s.death = .none) :
    Kept { s with death := .died, up := false, requests := [], pending := [] } := by
  have hwaiting : s.waiting = [] := by rw [waiting, hdeath]
  -- what was sent back before stays under way
  have hsub : ∀ t ∈ (s.responses.filter fun r => !r.late).map Response.ticket, t ∈ s.tickets :=
    fun t ht => mem_append_right _ ht
  refine ⟨⟨h.answers.once, h.answers.right, h.answers.own⟩,
    ⟨h.table.last, h.table.sent, h.table.fresh, h.table.inj, fun r hr => absurd hr not_mem_nil,
      nodup_nil, ?_⟩,
    ⟨?_, fun t ht => h.carried.held t (hsub t ht), fun _ _ _ _ => Or.inl rfl, h.carried.sized,
      fun _ => ⟨rfl, rfl, rfl⟩, fun _ => ?_⟩⟩
  · intro send x hx hhandler
    rcases h.table.account send x hx hhandler with hdone | hrecord | ⟨r, hr, -⟩
    · exact Or.inl hdone
    · exact Or.inr (Or.inl hrecord)
    · rw [hwaiting] at hr
      exact absurd hr not_mem_nil
  · exact h.carried.nodup.sublist ((sublist_append_right _ _).map _)
  · exact h.carried.proxied (by rw [hdeath]; exact fun hover => by cases hover)

theorem Table.used_nodup (h : Table s) : (s.used.map Record.send).Nodup := by
  rw [used, map_filterMap]
  refine List.Nodup.filterMap ?_ nodup_range
  intro i j send hi hj
  obtain ⟨r, hr, rfl⟩ := map_eq_some_iff.mp hi
  obtain ⟨x, hx, hsend⟩ := map_eq_some_iff.mp hj
  exact h.inj i j r x hr hx hsend.symm

/-- **The client empties its table**, and has every handler among those it calls. -/
theorem Kept.emptyTable (h : Kept s) (hdied : s.death = .died)
    (hmeets : ∀ r ∈ s.used.drop rilcDeathHandlingRecordMax, r.handler = false) :
    Kept s.emptyTable := by
  obtain ⟨hrequests, hpending, -⟩ := h.carried.down hdied
  have hwaiting : s.waiting = [] := by rw [waiting, hdied]
  -- what is still to come is late, and no ticket
  have htickets : s.emptyTable.tickets = [] := by
    simp only [tickets, State.emptyTable, hrequests, hpending, map_nil, nil_append,
      map_eq_nil_iff, filter_eq_nil_iff, List.mem_map]
    rintro _ ⟨r, -, rfl⟩
    exact Bool.false_ne_true
  have hnone : ∀ {i : ℕ} {r : Record}, s.emptyTable.records i ≠ some r := fun hr => by cases hr
  refine ⟨⟨h.answers.once, h.answers.right, h.answers.own⟩,
    ⟨Nat.zero_lt_succ _, fun _ _ hr => absurd hr hnone, fun _ _ hr => absurd hr hnone,
      fun _ _ _ _ hr => absurd hr hnone, ?_, ?_, ?_⟩,
    ⟨?_, ?_, fun _ _ hr => absurd hr hnone, ?_, (fun hd => by cases hd), fun _ => ?_⟩⟩
  · intro r hr
    obtain ⟨i, -, hi⟩ := mem_used.mp (mem_of_mem_take hr)
    exact ⟨(h.table.sent i r hi).2, h.table.fresh i r hi, fun _ _ hx => absurd hx hnone⟩
  · exact h.table.used_nodup.sublist ((take_sublist _ _).map _)
  · intro send x hx hhandler
    rcases h.table.account send x hx hhandler with hdone | ⟨i, r, hr, heq⟩ | ⟨r, hr, -⟩
    · exact Or.inl hdone
    · obtain ⟨hi, hsent⟩ := h.table.sent i r hr
      have hin : r ∈ s.used := mem_used.mpr ⟨i, hi, hr⟩
      rw [← take_append_drop rilcDeathHandlingRecordMax s.used] at hin
      rcases mem_append.mp hin with hfirst | hlater
      · exact Or.inr (Or.inr ⟨r, hfirst, heq⟩)
      · rw [heq, show s.sends[send]? = some x from hx] at hsent
        rw [some.inj hsent, hmeets r hlater] at hhandler
        cases hhandler
    · rw [hwaiting] at hr
      exact absurd hr not_mem_nil
  · rw [htickets]
    exact nodup_nil
  · rw [htickets]
    exact fun t ht => absurd ht not_mem_nil
  · intro r hr
    obtain ⟨x, hx, rfl⟩ := List.mem_map.mp hr
    exact h.carried.sized x hx
  · exact h.carried.proxied (by rw [hdied]; exact fun hover => by cases hover)

/-- **The client calls a handler** of the dead service. -/
theorem Kept.callback (h : Kept s) {rest : List Record} (hwaiting : s.waiting = r :: rest) :
    Kept (s.callback r rest) := by
  have hdeath : s.death = .calling (r :: rest) := by
    unfold waiting at hwaiting
    split at hwaiting
    · next heq =>
      rw [heq, hwaiting]
    · cases hwaiting
  obtain ⟨hsent, hfresh, hout⟩ := h.table.waits r (by rw [hwaiting]; exact mem_cons_self)
  have honce := h.table.waitsOnce
  rw [hwaiting, map_cons, nodup_cons] at honce
  have hin : ∀ send ∈ (s.callback r rest).called.map Called.send,
      send = r.send ∨ send ∈ s.called.map Called.send := by
    intro send hsend
    unfold State.callback at hsend
    dsimp only at hsend
    split at hsend
    · exact mem_cons.mp hsend
    · exact Or.inr hsend
  have hkeeps : ∀ send ∈ s.called.map Called.send,
      send ∈ (s.callback r rest).called.map Called.send := by
    intro send hsend
    unfold State.callback
    dsimp only
    split
    · exact mem_cons_of_mem _ hsend
    · exact hsend
  refine ⟨⟨?_, ?_, h.answers.own⟩, ⟨h.table.last, h.table.sent, ?_, h.table.inj, ?_, honce.2, ?_⟩,
    ⟨h.carried.nodup, h.carried.held, ?_, h.carried.sized, (fun hd => by cases hd), fun _ => ?_⟩⟩
  · unfold State.callback
    dsimp only
    split
    · rw [map_cons, nodup_cons]
      exact ⟨hfresh, h.answers.once⟩
    · exact h.answers.once
  · intro c hc
    unfold State.callback at hc
    dsimp only at hc
    split at hc
    · next hb =>
      rcases mem_cons.mp hc with rfl | hold
      · rw [hb] at hsent
        exact ⟨hsent, rfl⟩
      · exact h.answers.right c hold
    · exact h.answers.right c hc
  · intro i x hx hdone
    rcases hin _ hdone with heq | hold
    · exact hout i x hx heq
    · exact h.table.fresh i x hx hold
  · intro x hx
    have hx' : x ∈ rest := hx
    obtain ⟨hxsent, hxfresh, hxout⟩ :=
      h.table.waits x (by rw [hwaiting]; exact mem_cons_of_mem _ hx')
    refine ⟨hxsent, ?_, hxout⟩
    intro hdone
    rcases hin _ hdone with heq | hold
    · exact honce.1 (heq ▸ mem_map_of_mem hx')
    · exact hxfresh hold
  · intro send x hx hhandler
    rcases h.table.account send x hx hhandler with hdone | hrecord | ⟨y, hy, heq⟩
    · exact Or.inl (hkeeps send hdone)
    · exact Or.inr (Or.inl hrecord)
    · rw [hwaiting] at hy
      rcases mem_cons.mp hy with rfl | hrest
      -- its handler is the one that is called now
      · have hb : y.handler = true := by
          rw [heq, show s.sends[send]? = some x from hx] at hsent
          rw [some.inj hsent] at hhandler
          exact hhandler
        refine Or.inl ?_
        unfold State.callback
        dsimp only
        rw [if_pos hb]
        exact List.mem_map.mpr ⟨_, mem_cons_self, heq⟩
      · exact Or.inr (Or.inr ⟨y, hrest, heq⟩)
  · intro i x hx hhandler
    rcases h.carried.served i x hx hhandler with hdied | hticket
    · rw [hdeath] at hdied
      cases hdied
    · exact Or.inr hticket
  · exact h.carried.proxied (by rw [hdeath]; exact fun hover => by cases hover)

/-- **The client is done with the death**, with or without the proxy, where every record with a
handler has its ticket. -/
theorem Kept.over (h : Kept s) (hwaiting : s.waiting = [])
    (hserved : ∀ i r, s.records i = some r → r.handler = true → ∃ t ∈ s.tickets, t.send = r.send)
    (proxy : Bool) : Kept { s with death := .over, proxy := proxy } := by
  refine ⟨⟨h.answers.once, h.answers.right, h.answers.own⟩,
    ⟨h.table.last, h.table.sent, h.table.fresh, h.table.inj, fun r hr => absurd hr not_mem_nil,
      nodup_nil, ?_⟩,
    ⟨h.carried.nodup, h.carried.held, fun i r hr hhandler => Or.inr (hserved i r hr hhandler),
      h.carried.sized, (fun hd => by cases hd), fun hover => absurd rfl hover⟩⟩
  intro send x hx hhandler
  rcases h.table.account send x hx hhandler with hdone | hrecord | ⟨r, hr, -⟩
  · exact Or.inl hdone
  · exact Or.inr (Or.inl hrecord)
  · rw [hwaiting] at hr
    exact absurd hr not_mem_nil

/-- **The client hears of the death.** With the number of no client it leaves its records, and
then none of them has a handler. -/
theorem Kept.serviceDied (h : Kept s) (hdied : s.death = .died)
    (hmeets : ∀ r ∈ s.unheard, r.handler = false) : Kept s.processRadioExternalProxyDeath := by
  unfold State.processRadioExternalProxyDeath
  unfold unheard at hmeets
  split
  · next hnumber =>
    rw [if_pos hnumber] at hmeets
    refine h.over (by rw [waiting, hdied]) (fun i r hr hhandler => ?_) s.proxy
    have hfalse := hmeets r (mem_used.mpr ⟨i, (h.table.sent i r hr).1, hr⟩)
    rw [hhandler] at hfalse
    cases hfalse
  · next hnumber =>
    rw [if_neg hnumber] at hmeets
    exact h.emptyTable hdied hmeets

/-- **The client lets go of the proxy.** -/
theorem Kept.resetProxy (h : Kept s) (hdeath : s.death = .calling []) :
    Kept { s with death := .over, proxy := false } := by
  refine h.over (by rw [waiting, hdeath]) (fun i r hr hhandler => ?_) false
  refine (h.carried.served i r hr hhandler).resolve_left fun hdied => ?_
  rw [hdeath] at hdied
  cases hdied

/-! ## Any step -/

/-- **A step.** -/
theorem Kept.step (h : Kept s) {e : Event} (hmeets : s.Meets e) : Kept (s.step e) := by
  cases e with
  | rilcSend msgId length channel handler service =>
    exact h.rilcSend msgId length channel handler service
  | allocate n =>
    rw [State.step]
    cases hx : s.sending[n]? with
    | none => exact h
    | some x => exact h.allocate (hmeets x hx)
  | dispatchRaw n allocated =>
    rw [State.step]
    cases hr : s.requests[n]? with
    | none => exact h
    | some r => exact h.dispatchRaw hr (hmeets r hr)
  | onRequestComplete n e response responseLen =>
    rw [State.step]
    cases hp : s.pending[n]? with
    | none => exact h
    | some p =>
      dsimp only
      split
      · exact h.onRequestComplete hp e (hmeets p hp)
      · exact h
  | sendRequestRawResponse n =>
    rw [State.step]
    cases hr : s.responses[n]? with
    | none => exact h
    | some r => exact h.answer hr (hmeets r hr)
  | die =>
    rw [State.step]
    split
    · next hdeath => exact h.die hdeath
    · exact h
  | serviceDied =>
    rw [State.step]
    split
    · next hdied => exact h.serviceDied hdied (hmeets hdied)
    · exact h
  | callback =>
    rw [State.step]
    cases hwaiting : s.waiting with
    | nil => exact h
    | cons r rest => exact h.callback hwaiting
  | resetRadioExternalProxy =>
    rw [State.step]
    split
    · next hdeath => exact h.resetProxy hdeath
    · exact h
  | connect clientId =>
    rw [State.step]
    split
    · exact h
    · next hproxy => exact h.connect (Bool.not_eq_true _ ▸ hproxy) clientId

namespace State

/-- **The sends of a run** are answered once in every state, if every step meets its condition. -/
theorem answered_once (clientId : ℤ) (events : List Event)
    (h : Run.Throughout step Meets (initial clientId) events) :
    Run.Always step Lawful (initial clientId) events :=
  (Run.Always.of_invariant (P := Kept) (fun _ _ hs hmeets => hs.step hmeets)
    (kept_initial clientId) h).mono fun _ hs => hs.lawful

/-- Two sends, the second is answered first, and the service dies before the first is; then the
client connects again and sends once more. -/
theorem answered_once_run :
    Run.Always step Lawful (initial 3)
      [.rilcSend 11 0 1 true none, .rilcSend 12 4 0 true none, .allocate 0, .allocate 0,
        .dispatchRaw 0 true, .dispatchRaw 0 true, .onRequestComplete 0 .success true 4,
        .sendRequestRawResponse 0, .die, .serviceDied, .callback, .resetRadioExternalProxy,
        .connect 5, .rilcSend 39 0 0 true none, .allocate 0, .dispatchRaw 0 true,
        .onRequestComplete 0 .requestNotSupported false 0, .sendRequestRawResponse 0] :=
  answered_once 3 _ (by decide +kernel)

/-- **One network comes** as four pointers: the handler is told their 32 bytes, and is given the 106
of an `OEM_OperatorInfo`. -/
theorem not_answered_once : ¬ ∀ (clientId : ℤ) (events : List Event),
    Run.Always step Lawful (initial clientId) events := by
  intro h
  have hlast := (h 3 [.rilcSend 39 0 1 true none, .allocate 0, .dispatchRaw 0 true,
    .onRequestComplete 0 .success true 32, .sendRequestRawResponse 0]).last
  have hbytes := (hlast.right ⟨0, 39, .success, 32, 106, 1⟩ (by decide +kernel)).2
  exact absurd hbytes (by decide)

end State

end ExynosVendor.Ril.External.Transactions
