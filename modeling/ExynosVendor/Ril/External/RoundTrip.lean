import ExynosVendor.Ril.External.Traffic

/-!
# The round trip of the raw messages

The requests arrive exactly when all of them are ragged, and the responses and the
indications when, moreover, the client is there to take them: it waits for each response
under a serial of its own, and it listens to indications. A payload that is not ragged stays
in its slot.
-/

namespace ExynosVendor.Ril.External

open ClientProcess
open Reassembly
open List Option

variable {κ σ τ : Type} [DecidableEq κ] {send : Message κ σ → List (Call κ τ)} {conv : σ → τ}
  (fill : ℕ → UInt8)

/-! ## Requests -/

/-- Requests to the service. -/
abbrev Requests := Traffic fun m : Message RequestKey Unit => rilcSend m.key m.data

/-- **The requests arrive**: each payload is dispatched once, as it was sent, and nothing
else is; all the slots are free again. -/
def RequestsArrive (T : Requests) : Prop :=
  ∃ s, T.schedule.foldlM (Service.sendRequestRawSegment fill) Service.idle = some s ∧
    s.dispatched.Perm (T.messages.map fun m => (m.key, m.data)) ∧
    s.reqRawSegData = List.replicate maxNumRawSegment none

variable {fill}

/-- The receiver of requests dispatches what is complete. -/
theorem Service.run_eq {calls : List (Call RequestKey Unit)} {s : Service}
    {slots : SegData RequestKey Unit} {es : List (Partial RequestKey Unit UInt8)}
    (hrun : Reassembly.run maxRadioDataSize fill s.reqRawSegData
      (calls.map fun c => c.segment c.data) = some (slots, es))
    (hload : ∀ e ∈ es, Block.load e.buffer 0 e.got = some e.buffer) :
    calls.foldlM (Service.sendRequestRawSegment fill) s =
      some { s with
        reqRawSegData := slots
        dispatched := s.dispatched ++ es.map fun e => (e.key, e.buffer) } := by
  induction calls generalizing s es with
  | nil =>
    obtain ⟨rfl, rfl⟩ := Prod.mk.inj (some.inj hrun)
    simp
  | cons c calls ih =>
    rw [map_cons, Reassembly.run] at hrun
    rw [foldlM_cons, Service.sendRequestRawSegment]
    cases haccept : accept maxRadioDataSize fill s.reqRawSegData (c.segment c.data) with
    | full => simp [haccept] at hrun
    | notFound => simp [haccept] at hrun
    | fault => simp [haccept] at hrun
    | partly slots' =>
      simp only [haccept] at hrun
      exact ih hrun hload
    | complete e slots' =>
      simp only [haccept] at hrun
      obtain ⟨r, hrest, hr⟩ := map_eq_some_iff.mp hrun
      obtain ⟨rfl, rfl⟩ := Prod.mk.inj hr
      have hkey : e.key = c.key := accept_key haccept
      simp only [hload e mem_cons_self, map_some]
      have hnext := ih (s := { s with
        reqRawSegData := slots'
        dispatched := s.dispatched ++ [(c.key, e.buffer)] }) hrest
        fun e' he' => hload e' (mem_cons_of_mem e he')
      refine Eq.trans hnext ?_
      rw [map_cons, hkey, append_assoc]
      rfl

variable (fill)

/-- **Requests arrive exactly when all of them are ragged.** -/
theorem requestsArrive_iff (T : Requests) :
    RequestsArrive fill T ↔ ∀ m ∈ T.messages, m.Ragged := by
  obtain ⟨slots, es, hrun, hes, hfree⟩ := T.received id fill fun m _ => rfl
  have hload : ∀ e ∈ es, Block.load e.buffer 0 e.got = some e.buffer := by
    intro e he
    obtain ⟨m, -, rfl⟩ := received_of_perm hes he
    exact load_received m
  have hall := Service.run_eq (s := Service.idle) hrun hload
  constructor
  · rintro ⟨s, hs, -, hslots⟩
    rw [hall, some.injEq] at hs
    subst hs
    exact hfree.mp hslots
  · intro hragged
    refine ⟨_, hall, ?_, hfree.mpr hragged⟩
    have hfilter : (T.messages.filter fun m => m.Ragged) = T.messages :=
      filter_eq_self.mpr fun m hm => decide_eq_true (hragged m hm)
    rw [hfilter] at hes
    have hmap := hes.map fun e => (e.key, e.buffer)
    rw [List.map_map] at hmap
    exact hmap

/-! ## Responses -/

/-- Responses to one client. -/
abbrev Responses (registered : Bool) :=
  Traffic fun m : Message ResponseKey RilErrno =>
    sendRequestRawResponseSeg registered m.key m.tag m.data

/-- The process of a client with free slots. -/
def ClientProcess.idle (client : Option Client) : ClientProcess :=
  ⟨client, List.replicate maxNumRawSegment none, List.replicate maxNumRawSegment none⟩

/-- The calls of the handlers of the records. -/
def ClientProcess.answers (p : ClientProcess) : List Answer := p.pClient.elim [] Client.answers

/-- The answer that a response is sent for. -/
def Message.answer (m : Message ResponseKey RilErrno) : Answer :=
  ⟨m.key, convertToRilcErrorNo (populateError m.tag), some m.data⟩

/-- **The responses arrive**: each payload goes to the handler of its record once, as it was
sent, and no handler is called for anything else; all the slots are free again. -/
def ResponsesArrive (client : Option Client) {registered : Bool} (T : Responses registered) :
    Prop :=
  ∃ p, T.schedule.foldlM (ClientProcess.sendRequestRawResponseSeg fill)
      (idle client) = some p ∧
    (∃ new, p.answers = (idle client).answers ++ new ∧
      new.Perm (T.messages.map Message.answer)) ∧
    p.rspRawSegData = List.replicate maxNumRawSegment none

variable {p : ClientProcess} {registered : Bool}

theorem ClientProcess.rsp_none (hp : p.pClient = none)
    (calls : List (Call ResponseKey RadioExternalError)) :
    calls.foldlM (ClientProcess.sendRequestRawResponseSeg fill) p = some p := by
  induction calls with
  | nil => rfl
  | cons c calls ih =>
    rw [foldlM_cons, ClientProcess.sendRequestRawResponseSeg, hp]
    exact ih

variable {fill}

/-- The receiver of responses answers what is complete. -/
theorem ClientProcess.rsp_run {calls : List (Call ResponseKey RadioExternalError)} {client : Client}
    (hp : p.pClient = some client) (hlen : ∀ c ∈ calls, c.totalLen ≤ rilcMaxResponsePayloadSize)
    {slots : SegData ResponseKey RadioExternalError}
    {es : List (Partial ResponseKey RadioExternalError UInt8)}
    (hrun : Reassembly.run maxRadioDataSize fill p.rspRawSegData
      (calls.map fun c => c.segment c.data) = some (slots, es)) :
    calls.foldlM (ClientProcess.sendRequestRawResponseSeg fill) p =
      (es.foldlM Client.answer client).map fun client =>
        { p with pClient := some client, rspRawSegData := slots } := by
  obtain ⟨pClient, rsp, ind⟩ := p
  obtain rfl : pClient = some client := hp
  refine foldlM_of_run (fun slots c => mk (some c) slots ind) Client.answer
    (fun c hc slots client => ?_) hrun
  rw [ClientProcess.sendRequestRawResponseSeg]
  simp only [if_neg (Nat.not_lt.mpr (hlen c hc))]
  split <;> simp_all

/-- A client that waits for a response: the record of the serial is one of the message, and
has a handler. -/
def Client.Awaits (client : Client) (key : ResponseKey) : Prop :=
  client.record key.serial = some (some ⟨key.rilcMsgId, true⟩)

/-- A record is gone when it was taken. -/
theorem Client.record_set (client : Client) {serial : ℤ} {r : Option Record}
    (hr : client.record serial = some r) (serial' : ℤ) (answers : List Answer) :
    Client.record { client with
        records := client.records.set serial.toNat none
        answers := answers } serial' =
      if serial' = serial then some none else client.record serial' := by
  unfold Client.record at hr ⊢
  by_cases hpos : 0 ≤ serial
  · rw [if_pos hpos] at hr
    obtain ⟨hlt, -⟩ := List.getElem?_eq_some_iff.mp hr
    by_cases hsame : serial' = serial
    · subst hsame
      simp [hpos, hlt]
    · by_cases hpos' : 0 ≤ serial'
      · have hne : serial.toNat ≠ serial'.toNat := by omega
        simp [hpos', hsame, getElem?_set_ne hne]
      · simp [hpos', hsame]
  · rw [if_neg hpos] at hr
    exact absurd hr.symm (some_ne_none r)

/-- What a client tells the handler of a record. -/
def answerOf (e : Partial ResponseKey RadioExternalError UInt8) : Answer :=
  ⟨e.key, convertToRilcErrorNo e.tag, some e.buffer⟩

/-- A response as it can be told: it has bytes, and all of them are there. -/
def Told (e : Partial ResponseKey RadioExternalError UInt8) : Prop :=
  0 < e.total ∧ Block.load e.buffer 0 e.total = some e.buffer

variable {client client' : Client} {e : Partial ResponseKey RadioExternalError UInt8}
  {es : List (Partial ResponseKey RadioExternalError UInt8)}

/-- **A response that is awaited** is answered, and its record is free. -/
theorem Client.answer_of_awaits (he : Told e) (h : client.Awaits e.key) :
    client.answer e = some { client with
      records := client.records.set e.key.serial.toNat none
      answers := client.answers ++ [answerOf e] } := by
  unfold Client.answer Client.take
  rw [h]
  simp only [map_some, if_pos, bind_some, he.2, if_pos he.1]
  rfl

/-- Any other calls no handler. -/
theorem Client.answers_of_not_awaits (h : ¬ client.Awaits e.key)
    (hanswer : client.answer e = some client') : client'.answers = client.answers := by
  unfold Client.answer Client.take at hanswer
  cases hrecord : client.record e.key.serial with
  | none => simp [hrecord] at hanswer
  | some o =>
    rw [hrecord] at hanswer
    cases o with
    | none =>
      obtain rfl := some.inj hanswer
      rfl
    | some r =>
      simp only [map_some, bind_some] at hanswer
      by_cases hid : r.msgId = e.key.rilcMsgId
      · rw [if_pos hid] at hanswer
        cases hhandler : r.handler with
        | true =>
          refine absurd ?_ h
          unfold Client.Awaits
          rw [hrecord, ← hid, ← hhandler]
        | false =>
          rw [hhandler] at hanswer
          obtain rfl := some.inj hanswer
          rfl
      · rw [if_neg hid] at hanswer
        obtain rfl := some.inj hanswer
        rfl

theorem Client.awaits_after (h : client.Awaits e.key) {key : ResponseKey}
    (answers : List Answer) :
    Client.Awaits { client with
        records := client.records.set e.key.serial.toNat none
        answers := answers } key ↔ key.serial ≠ e.key.serial ∧ client.Awaits key := by
  unfold Client.Awaits
  rw [Client.record_set client h key.serial answers]
  by_cases hsame : key.serial = e.key.serial
  · simp [hsame]
  · simp [hsame]

/-- **All responses are answered** when all are awaited, under different serials. -/
theorem Client.answers_of_awaits (hes : ∀ e ∈ es, Told e)
    (hawait : ∀ e ∈ es, client.Awaits e.key) (hserial : (es.map fun e => e.key.serial).Nodup) :
    ∃ client', es.foldlM Client.answer client = some client' ∧
      client'.answers = client.answers ++ es.map answerOf := by
  induction es generalizing client with
  | nil => exact ⟨client, rfl, (append_nil _).symm⟩
  | cons e es ih =>
    rw [map_cons, nodup_cons] at hserial
    have hhead := hawait e mem_cons_self
    have hrest (e' : Partial ResponseKey RadioExternalError UInt8) (he' : e' ∈ es) :
        Client.Awaits { client with
          records := client.records.set e.key.serial.toNat none
          answers := client.answers ++ [answerOf e] } e'.key := by
      refine (Client.awaits_after hhead _).mpr ⟨fun hsame => ?_, ?_⟩
      · exact hserial.1 (List.mem_map.mpr ⟨e', he', hsame⟩)
      · exact hawait e' (mem_cons_of_mem e he')
    obtain ⟨client', hfold, hanswers⟩ :=
      ih (fun e' he' => hes e' (mem_cons_of_mem e he')) hrest hserial.2
    refine ⟨client', ?_, ?_⟩
    · rw [foldlM_cons, Client.answer_of_awaits (hes e mem_cons_self) hhead]
      exact hfold
    · rw [hanswers, map_cons, append_assoc]
      rfl

/-- **And only then**: there are never more answers than responses, and as many only if each
was awaited. -/
theorem Client.awaits_of_answers (hes : ∀ e ∈ es, Told e)
    (hfold : es.foldlM Client.answer client = some client') :
    ∃ new, client'.answers = client.answers ++ new ∧ new.length ≤ es.length ∧
      (new.length = es.length → (∀ e ∈ es, client.Awaits e.key) ∧
        (es.map fun e => e.key.serial).Nodup) := by
  induction es generalizing client with
  | nil =>
    obtain rfl := some.inj hfold
    exact ⟨[], (append_nil _).symm, Nat.le_refl _,
      fun _ => ⟨fun e he => absurd he not_mem_nil, nodup_nil⟩⟩
  | cons e es ih =>
    rw [foldlM_cons] at hfold
    obtain ⟨client₁, hhead, htail⟩ := bind_eq_some_iff.mp hfold
    obtain ⟨new, hanswers, hle, hall⟩ :=
      ih (fun e' he' => hes e' (mem_cons_of_mem e he')) htail
    by_cases hawait : client.Awaits e.key
    · rw [Client.answer_of_awaits (hes e mem_cons_self) hawait, some.injEq] at hhead
      subst hhead
      refine ⟨answerOf e :: new, ?_, ?_, fun hlen => ?_⟩
      · rw [hanswers, append_assoc]
        rfl
      · rw [length_cons, length_cons]
        omega
      · rw [length_cons, length_cons] at hlen
        obtain ⟨hothers, hserial⟩ := hall (by omega)
        constructor
        · intro e' he'
          rcases mem_cons.mp he' with rfl | hrest
          · exact hawait
          · exact ((Client.awaits_after hawait _).mp (hothers e' hrest)).2
        · rw [map_cons, nodup_cons]
          refine ⟨fun hmem => ?_, hserial⟩
          obtain ⟨e', he', hsame⟩ := List.mem_map.mp hmem
          exact ((Client.awaits_after hawait _).mp (hothers e' he')).1 hsame
    · have hsame := Client.answers_of_not_awaits hawait hhead
      refine ⟨new, hsame ▸ hanswers, ?_, fun hlen => ?_⟩
      · rw [length_cons]
        omega
      · rw [length_cons] at hlen
        omega

/-- **What it takes for the responses to arrive**: all of them are ragged, the client is
registered and there, it waits for each of them, and no two have one serial. -/
def ResponsesAwaited (registered : Bool) (client : Option Client)
    (messages : List (Message ResponseKey RilErrno)) : Prop :=
  (∀ m ∈ messages, m.Ragged ∧ registered = true ∧ ∃ c, client = some c ∧ c.Awaits m.key) ∧
    (messages.map fun m => m.key.serial).Nodup

variable (fill)

/-- When nothing comes of the calls, there was nothing to come. -/
theorem responsesArrive_of_idle {client : Option Client} {T : Responses registered}
    (hfold : T.schedule.foldlM (ClientProcess.sendRequestRawResponseSeg fill)
      (idle client) = some (idle client)) :
    ResponsesArrive fill client T ↔ T.messages = [] := by
  constructor
  · rintro ⟨p, hp, ⟨new, hnew, hperm⟩, -⟩
    rw [hfold, some.injEq] at hp
    subst hp
    have hnil : new = [] := self_eq_append_right.mp hnew
    rw [hnil, nil_perm, map_eq_nil_iff] at hperm
    exact hperm
  · intro hnil
    refine ⟨_, hfold, ⟨[], (append_nil _).symm, ?_⟩, rfl⟩
    rw [hnil]
    exact List.Perm.refl _

/-- **Responses arrive exactly when** they are awaited and ragged. -/
theorem responsesArrive_iff (client : Option Client) (T : Responses registered) :
    ResponsesArrive fill client T ↔ ResponsesAwaited registered client T.messages := by
  have hnobody (hno : ∀ c, ¬ (registered = true ∧ client = some c)) :
      ResponsesAwaited registered client T.messages ↔ T.messages = [] := by
    constructor
    · rintro ⟨hall, -⟩
      rw [eq_nil_iff_forall_not_mem]
      intro m hm
      obtain ⟨-, hreg, c, hc, -⟩ := hall m hm
      exact hno c ⟨hreg, hc⟩
    · intro hnil
      rw [hnil]
      exact ⟨fun m hm => absurd hm not_mem_nil, nodup_nil⟩
  cases registered with
  | false =>
    rw [hnobody fun c h => Bool.noConfusion h.1]
    have hnil : T.schedule = [] := T.schedule_eq_nil fun m _ => rfl
    refine responsesArrive_of_idle fill ?_
    rw [hnil]
    rfl
  | true =>
    cases client with
    | none =>
      rw [hnobody fun c h => some_ne_none c h.2.symm]
      exact responsesArrive_of_idle fill (rsp_none fill rfl T.schedule)
    | some client =>
      have hsend : ∀ m ∈ T.messages, sendRequestRawResponseSeg true m.key m.tag m.data =
          split m.key (populateError m.tag) m.data := fun m _ => rfl
      obtain ⟨slots, es, hrun, hes, hfree⟩ := T.received populateError fill hsend
      have hfold := rsp_run (p := idle (some client)) rfl
        (fun c hc => (T.call_spec hsend c hc).1) hrun
      have htold : ∀ e ∈ es, Told e := by
        intro e he
        obtain ⟨m, -, rfl⟩ := received_of_perm hes he
        exact ⟨Nat.lt_of_le_of_lt (Nat.zero_le _) m.long, load_received m⟩
      constructor
      · rintro ⟨p, hp, ⟨new, hnew, hperm⟩, hslots⟩
        rw [hfold] at hp
        obtain ⟨client', hclient', rfl⟩ := map_eq_some_iff.mp hp
        have hragged := hfree.mp hslots
        have hall := perm_of_ragged hes hragged
        obtain ⟨new', hanswers, -, hawaited⟩ := Client.awaits_of_answers htold hclient'
        obtain rfl : new = new' := append_cancel_left (hnew.symm.trans hanswers)
        have hlen : new.length = es.length := by
          rw [hperm.length_eq, hall.length_eq, length_map, length_map]
        obtain ⟨hawait, hserial⟩ := hawaited hlen
        refine ⟨fun m hm => ⟨hragged m hm, rfl, client, rfl, ?_⟩, ?_⟩
        · exact hawait (m.received populateError)
            (hall.mem_iff.mpr (List.mem_map_of_mem hm))
        · have hmap := (hall.map fun e => e.key.serial).nodup_iff.mp hserial
          rw [List.map_map] at hmap
          exact hmap
      · rintro ⟨hawaited, hserial⟩
        have hragged : ∀ m ∈ T.messages, m.Ragged := fun m hm => (hawaited m hm).1
        have hall := perm_of_ragged hes hragged
        have hawait : ∀ e ∈ es, client.Awaits e.key := by
          intro e he
          obtain ⟨m, hm, rfl⟩ := received_of_perm hes he
          obtain ⟨-, -, c, hc, hcm⟩ := hawaited m hm
          obtain rfl := some.inj hc
          exact hcm
        have hserials : (es.map fun e => e.key.serial).Nodup := by
          rw [(hall.map fun e => e.key.serial).nodup_iff, List.map_map]
          exact hserial
        obtain ⟨client', hclient', hanswers⟩ :=
          Client.answers_of_awaits htold hawait hserials
        rw [hclient'] at hfold
        refine ⟨_, hfold, ⟨es.map answerOf, hanswers, ?_⟩, hfree.mpr hragged⟩
        have hmap := hall.map answerOf
        rw [List.map_map] at hmap
        exact hmap

/-! ## Indications -/

/-- Indications, as they come to one client. -/
abbrev Indications (registered : Bool) :=
  Traffic fun m : Message IndicationKey Unit => rilExternalRawIndicationSeg registered m.key m.data

/-- The calls of the handler of unsolicited messages. -/
def ClientProcess.unsolicited (p : ClientProcess) : List (IndicationKey × List UInt8) :=
  p.pClient.elim [] Client.unsolicited

/-- **The indications arrive**: each payload goes to the handler once, as it was sent, and
nothing else does; all the slots are free again. -/
def IndicationsArrive (client : Option Client) {registered : Bool}
    (T : Indications registered) : Prop :=
  ∃ p, T.schedule.foldlM (ClientProcess.rilExternalRawIndicationSeg fill)
      (idle client) = some p ∧
    (∃ new, p.unsolicited = (idle client).unsolicited ++ new ∧
      new.Perm (T.messages.map fun m => (m.key, m.data))) ∧
    p.indRawSegData = List.replicate maxNumRawSegment none

/-- A client that takes indications. -/
def Client.Listens (client : Client) : Prop :=
  client.closing = false ∧ client.unsolicitedHandler = true

instance (client : Client) : Decidable client.Listens := inferInstanceAs (Decidable (_ ∧ _))

/-- **What it takes for the indications to arrive**: all of them are ragged, and the client
is registered, there, and listens. -/
def IndicationsHeard (registered : Bool) (client : Option Client)
    (messages : List (Message IndicationKey Unit)) : Prop :=
  ∀ m ∈ messages, m.Ragged ∧ registered = true ∧ ∃ c, client = some c ∧ c.Listens

theorem ClientProcess.ind_none (hp : p.pClient = none) (calls : List (Call IndicationKey Unit)) :
    calls.foldlM (ClientProcess.rilExternalRawIndicationSeg fill) p = some p := by
  induction calls with
  | nil => rfl
  | cons c calls ih =>
    rw [foldlM_cons, ClientProcess.rilExternalRawIndicationSeg, hp]
    exact ih

variable {fill}

/-- The receiver of indications tells the handler what is complete. -/
theorem ClientProcess.ind_run {calls : List (Call IndicationKey Unit)} {client : Client}
    (hp : p.pClient = some client) (hlen : ∀ c ∈ calls, c.dataLen = c.data.length)
    {slots : SegData IndicationKey Unit} {es : List (Partial IndicationKey Unit UInt8)}
    (hrun : Reassembly.run maxRadioDataSize fill p.indRawSegData
      (calls.map fun c => c.segment c.data) = some (slots, es)) :
    calls.foldlM (ClientProcess.rilExternalRawIndicationSeg fill) p =
      (es.foldlM Client.indicate client).map fun client =>
        { p with pClient := some client, indRawSegData := slots } := by
  obtain ⟨pClient, rsp, ind⟩ := p
  obtain rfl : pClient = some client := hp
  refine foldlM_of_run (fun slots c => mk (some c) rsp slots) Client.indicate
    (fun c hc slots client => ?_) hrun
  rw [ClientProcess.rilExternalRawIndicationSeg]
  simp only [hlen c hc, load_all, getD_some]
  split <;> simp_all

/-- **A client that listens** is told everything. -/
theorem Client.unsolicited_of_listens {client : Client} (h : client.Listens)
    {es : List (Partial IndicationKey Unit UInt8)}
    (hes : ∀ e ∈ es, Block.load e.buffer 0 e.total = some e.buffer) :
    es.foldlM Client.indicate client =
      some { client with
        unsolicited := client.unsolicited ++ es.map fun e => (e.key, e.buffer) } := by
  induction es generalizing client with
  | nil => simp
  | cons e es ih =>
    have hhead : client.indicate e =
        some { client with unsolicited := client.unsolicited ++ [(e.key, e.buffer)] } := by
      unfold Client.Listens at h
      rw [Client.indicate, if_pos h, hes e mem_cons_self, map_some]
    have hnext := @ih
      { client with unsolicited := client.unsolicited ++ [(e.key, e.buffer)] } h
      fun e' he' => hes e' (mem_cons_of_mem e he')
    rw [foldlM_cons, hhead]
    refine Eq.trans hnext ?_
    rw [map_cons, append_assoc]
    rfl

theorem Client.unsolicited_of_not_listens {client : Client} (h : ¬ client.Listens)
    (es : List (Partial IndicationKey Unit UInt8)) :
    es.foldlM Client.indicate client = some client := by
  induction es with
  | nil => rfl
  | cons e es ih =>
    unfold Client.Listens at h
    rw [foldlM_cons, Client.indicate, if_neg h]
    exact ih

variable (fill)

/-- A handler that is not called tells nothing: the indications arrive only if there are
none. -/
theorem indicationsArrive_of_silent {client : Option Client} {T : Indications registered}
    (hsilent : ∀ p, T.schedule.foldlM (ClientProcess.rilExternalRawIndicationSeg fill)
      (idle client) = some p →
      p.unsolicited = (idle client).unsolicited) :
    IndicationsArrive fill client T ↔ T.messages = [] := by
  constructor
  · rintro ⟨p, hp, ⟨new, hnew, hperm⟩, -⟩
    rw [hsilent p hp] at hnew
    have hnil : new = [] := self_eq_append_right.mp hnew
    rw [hnil, nil_perm, map_eq_nil_iff] at hperm
    exact hperm
  · intro hnil
    have hschedule : T.schedule = [] := T.schedule_eq_nil fun m hm => by
      rw [hnil] at hm
      exact absurd hm not_mem_nil
    refine ⟨idle client, ?_, ⟨[], (append_nil _).symm, ?_⟩, rfl⟩
    · rw [hschedule]
      rfl
    · rw [hnil]
      exact List.Perm.refl _

/-- What comes of the calls for a client that is there. -/
theorem Indications.fold_eq (client : Client) (T : Indications true) :
    ∃ (slots : SegData IndicationKey Unit) (es : List (Partial IndicationKey Unit UInt8)),
      T.schedule.foldlM (ClientProcess.rilExternalRawIndicationSeg fill)
          (idle (some client)) =
        (es.foldlM Client.indicate client).map (fun client =>
          ⟨some client, List.replicate maxNumRawSegment none, slots⟩) ∧
      es.Perm ((T.messages.filter fun m => m.Ragged).map (Message.received id)) ∧
      (slots = List.replicate maxNumRawSegment none ↔ ∀ m ∈ T.messages, m.Ragged) := by
  have hsend : ∀ m ∈ T.messages, rilExternalRawIndicationSeg true m.key m.data =
      split m.key (id m.tag) m.data := fun m _ => rfl
  obtain ⟨slots, es, hrun, hes, hfree⟩ := T.received id fill hsend
  exact ⟨slots, es, ind_run (p := idle (some client)) rfl
    (fun c hc => (T.call_spec hsend c hc).2) hrun, hes, hfree⟩

/-- **Indications arrive exactly when** they are ragged and heard. -/
theorem indicationsArrive_iff (client : Option Client) (T : Indications registered) :
    IndicationsArrive fill client T ↔ IndicationsHeard registered client T.messages := by
  by_cases hready : registered = true ∧ ∃ c, client = some c ∧ c.Listens
  · obtain ⟨rfl, client, rfl, hlistens⟩ := hready
    obtain ⟨slots, es, hfold, hes, hfree⟩ := Indications.fold_eq fill client T
    have hload : ∀ e ∈ es, Block.load e.buffer 0 e.total = some e.buffer := by
      intro e he
      obtain ⟨m, -, rfl⟩ := received_of_perm hes he
      exact load_received m
    rw [Client.unsolicited_of_listens hlistens hload, map_some] at hfold
    constructor
    · rintro ⟨p, hp, -, hslots⟩ m hm
      rw [hfold, some.injEq] at hp
      subst hp
      exact ⟨hfree.mp hslots m hm, rfl, client, rfl, hlistens⟩
    · intro hheard
      have hragged : ∀ m ∈ T.messages, m.Ragged := fun m hm => (hheard m hm).1
      refine ⟨_, hfold, ⟨es.map fun e => (e.key, e.buffer), rfl, ?_⟩, hfree.mpr hragged⟩
      have hmap := (perm_of_ragged hes hragged).map fun e => (e.key, e.buffer)
      rw [List.map_map] at hmap
      exact hmap
  · have hheard : IndicationsHeard registered client T.messages ↔ T.messages = [] := by
      constructor
      · intro hall
        rw [eq_nil_iff_forall_not_mem]
        exact fun m hm => hready (hall m hm).2
      · intro hnil m hm
        rw [hnil] at hm
        exact absurd hm not_mem_nil
    rw [hheard]
    refine indicationsArrive_of_silent fill fun p hp => ?_
    -- Not registered, not there, or not listening.
    cases registered with
    | false =>
      have hnil : T.schedule = [] := T.schedule_eq_nil fun m _ => rfl
      rw [hnil] at hp
      obtain rfl := some.inj hp
      rfl
    | true =>
      cases client with
      | none =>
        rw [ind_none fill rfl] at hp
        obtain rfl := some.inj hp
        rfl
      | some client =>
        have hdeaf : ¬ client.Listens := fun hlistens => hready ⟨rfl, client, rfl, hlistens⟩
        obtain ⟨slots, es, hfold, -, -⟩ := Indications.fold_eq fill client T
        rw [hfold, Client.unsolicited_of_not_listens hdeaf, map_some] at hp
        obtain rfl := some.inj hp
        rfl

/-! ## All three directions -/

/-- **The round trip, exactly when.** Whatever the buffers are filled with, whatever the
lengths and the order of the calls of different messages: requests arrive if and only if
none of them has a length that is a multiple of the size of a segment, and so do responses
and indications to a client that waits for them, or listens. -/
theorem segmentation_iff (client : Option Client) (registered : Bool) :
    (∀ T : Requests, RequestsArrive fill T ↔ ∀ m ∈ T.messages, m.Ragged) ∧
    (∀ T : Responses registered,
      ResponsesArrive fill client T ↔ ResponsesAwaited registered client T.messages) ∧
    ∀ T : Indications registered,
      IndicationsArrive fill client T ↔ IndicationsHeard registered client T.messages :=
  ⟨requestsArrive_iff fill, responsesArrive_iff fill client, indicationsArrive_iff fill client⟩

/-- A payload of two whole segments. -/
def twoSegments : List UInt8 := List.replicate (2 * maxRadioDataSize) 0

/-- A client that waits for a response to the message 1 under the serial 0, and listens. -/
def waitingClient : Client := ⟨false, true, [some ⟨1, true⟩], [], []⟩

/-- **A payload of two whole segments does not arrive**, in none of the directions: not with
a client that is there, waits for the response and listens. -/
theorem not_segmentation :
    (∃ T : Requests, ¬ RequestsArrive (fun _ => 0) T) ∧
    (∃ T : Responses true, (∀ m ∈ T.messages, waitingClient.Awaits m.key) ∧
      ¬ ResponsesArrive (fun _ => 0) (some waitingClient) T) ∧
    waitingClient.Listens ∧
    ∃ T : Indications true, ¬ IndicationsArrive (fun _ => 0) (some waitingClient) T := by
  have hlength : twoSegments.length = 2 * maxRadioDataSize := length_replicate
  have hlong : maxRadioDataSize < twoSegments.length := by
    rw [hlength]
    decide
  have hshort : twoSegments.length ≤ rilcMaxResponsePayloadSize := by
    rw [hlength]
    decide
  have hwhole : twoSegments.length % maxRadioDataSize = 0 := by
    rw [hlength]
    decide
  refine ⟨⟨Traffic.solo id ⟨⟨0, 0, 1, 0⟩, (), twoSegments, hlong, hshort⟩ rfl, ?_⟩,
    ⟨Traffic.solo populateError ⟨⟨0, 1, 0⟩, .success, twoSegments, hlong, hshort⟩ rfl,
      ?_, ?_⟩,
    ⟨rfl, rfl⟩, ⟨Traffic.solo id ⟨⟨1, 0⟩, (), twoSegments, hlong, hshort⟩ rfl, ?_⟩⟩
  · rw [requestsArrive_iff]
    intro hall
    exact hall _ mem_cons_self hwhole
  · intro m hm
    obtain rfl := mem_singleton.mp hm
    rfl
  · rw [responsesArrive_iff]
    rintro ⟨hall, -⟩
    exact (hall _ mem_cons_self).1 hwhole
  · rw [indicationsArrive_iff]
    intro hall
    exact (hall _ mem_cons_self).1 hwhole

end ExynosVendor.Ril.External
