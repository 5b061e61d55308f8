import ExynosVendor.Nfc.HalEffects
import ExynosVendor.Nfc.HalSystem

/-!
# Responses and the commands they answer

`HAL_STATE_SERVICE` with a controller that answers each command it is sent,
in their order. `nfc_hal_prehandler` sends CORE_RESET for the stack's
PROP_WR_RESET and turns the response back; it also turns the response to a
CORE_RESET that the stack sent itself, as it does not look at
`HAL_FLAG_PROP_RESET`.

`Carries` says of a function which packets it gives to the controller and to
the stack; `responses_match_iff` is read off it.
-/

namespace ExynosVendor.Nfc

open List

/-- The packet in these bytes. -/
def NciPkt.ofBytes (data : List (BitVec 8)) : NciPkt := (HalMsg.mk .read data).nciPacket

/-- A packet on its way out of the task. -/
inductive Carried where
  /-- To the controller. -/
  | sent (pkt : NciPkt)
  /-- To the stack. -/
  | passed (pkt : NciPkt)
  deriving DecidableEq

/-- What an effect carries. -/
def HalEffect.carried : HalEffect → Option Carried
  | .write bytes => some (.sent (.ofBytes bytes))
  | .data bytes => some (.passed (.ofBytes bytes))
  | _ => none

/-- The commands among these. -/
def Carried.sent? : Carried → Option NciPkt
  | .sent pkt => some pkt
  | .passed _ => none

/-- And the responses. -/
def Carried.passed? : Carried → Option NciPkt
  | .sent _ => none
  | .passed pkt => some pkt

/-! ## The exchange -/

/-- What happens in `HAL_STATE_SERVICE`. -/
inductive ServiceInput where
  /-- A packet of the stack. -/
  | command (param : List (BitVec 8))
  /-- A packet of the controller. -/
  | response (param : List (BitVec 8))
  deriving DecidableEq

/-- The task, with the controller and the stack around it. -/
structure Exchange where
  info : HalInfo
  /-- The commands of the stack with the commands sent for them, which the
  controller has to answer. -/
  pending : List (NciPkt × NciPkt)
  /-- The commands of the stack with the responses passed for them. -/
  answered : List (NciPkt × NciPkt)

namespace Exchange

/-- A message is handled for a command of the stack, with so many to answer. -/
def handled (s : Exchange) (ans : HalAnswers) (msg : HalMsg) (cmd : NciPkt)
    (pending : List (NciPkt × NciPkt)) : Exchange :=
  let (info, out) := s.info.handle ans msg
  let carried := out.filterMap HalEffect.carried
  { info := info
    pending := pending ++ (carried.filterMap Carried.sent?).map (cmd, ·)
    answered := s.answered ++ (carried.filterMap Carried.passed?).map (cmd, ·) }

/-- A step: a packet of the controller answers the first command. -/
def next (ans : HalAnswers) (s : Exchange) : ServiceInput → Exchange
  | .command param => s.handled ans ⟨.write, param⟩ (.ofBytes param) s.pending
  | .response param =>
      match s.pending with
      | [] => s
      | (cmd, _) :: rest => s.handled ans ⟨.read, param⟩ cmd rest

/-- **One response per command**, in order, with its group and opcode. -/
def Exchanging (s : Exchange) : ServiceInput → Prop
  | .command param => (NciPkt.ofBytes param).mt = nciMtCmd
  | .response param => ∃ c ∈ s.pending.head?, (NciPkt.ofBytes param).answers c.2.gid c.2.nciOid

instance (s : Exchange) : (i : ServiceInput) → Decidable (s.Exchanging i)
  | .command param => inferInstanceAs (Decidable ((NciPkt.ofBytes param).mt = nciMtCmd))
  | .response param => inferInstanceAs
      (Decidable (∃ c ∈ s.pending.head?, (NciPkt.ofBytes param).answers c.2.gid c.2.nciOid))

/-- **Every response answers its command**: it has the group and the opcode of
the command of the stack. -/
def Matching (s : Exchange) : Prop := ∀ p ∈ s.answered, p.2.answers p.1.gid p.1.nciOid

instance (s : Exchange) : Decidable s.Matching :=
  inferInstanceAs (Decidable (∀ p ∈ s.answered, p.2.answers p.1.gid p.1.nciOid))

end Exchange

/-- CORE_RESET. -/
def NciPkt.isReset (p : NciPkt) : Prop := p.gid = nciGidCore ∧ p.nciOid = nciCoreReset

instance (p : NciPkt) : Decidable p.isReset := inferInstanceAs (Decidable (_ ∧ _))

/-- PROP_WR_RESET. -/
def NciPkt.isWrReset (p : NciPkt) : Prop := p.gid = nciGidProp ∧ p.nciOid = nciPropWrReset

instance (p : NciPkt) : Decidable p.isWrReset := inferInstanceAs (Decidable (_ ∧ _))

/-- **No response is for a CORE_RESET** that the stack sent. -/
def Exchange.NotForReset (s : Exchange) : ServiceInput → Prop
  | .command _ => True
  | .response _ => ∀ c ∈ s.pending.head?, ¬ c.1.isReset

instance (s : Exchange) : (i : ServiceInput) → Decidable (s.NotForReset i)
  | .command _ => isTrue trivial
  | .response _ => inferInstanceAs (Decidable (∀ c ∈ s.pending.head?, ¬ c.1.isReset))

/-! ## What the functions carry -/

/-- **What a call carries**, in the state it stays in. -/
def Carries {α : Type} (cs : List Carried) (m : HalM α) (r : HalRun) : Prop :=
  (m r).2.info.state = r.info.state ∧
    ∃ out, (m r).2.out = r.out ++ out ∧ out.filterMap HalEffect.carried = cs

section Functions

variable {α β : Type} {m : HalM α} {f : α → HalM β} {r : HalRun} {cs cs' : List Carried}

/-- **One call behind the other.** -/
theorem Carries.bind (h : Carries cs m r) (hf : Carries cs' (f (m r).1) (m r).2) :
    Carries (cs ++ cs') (m >>= f) r := by
  obtain ⟨hstate, out, hout, hcarried⟩ := h
  obtain ⟨hstate', out', hout', hcarried'⟩ := hf
  refine ⟨hstate'.trans hstate, out ++ out', ?_, ?_⟩
  · show (f (m r).1 (m r).2).2.out = _
    rw [hout', hout, append_assoc]
  · rw [filterMap_append, hcarried, hcarried']

/-- The first carries nothing. -/
theorem Carries.behind (h : Carries [] m r) (hf : Carries cs (f (m r).1) (m r).2) :
    Carries cs (m >>= f) r := h.bind hf

/-- Or the second. -/
theorem Carries.front (h : Carries cs m r) (hf : Carries [] (f (m r).1) (m r).2) :
    Carries cs (m >>= f) r := by
  have hboth := h.bind hf
  rwa [append_nil] at hboth

theorem carries_pure (a : α) (r : HalRun) : Carries [] (pure a : HalM α) r :=
  ⟨rfl, [], (append_nil _).symm, rfl⟩

theorem carries_getInfo (r : HalRun) : Carries [] getInfo r :=
  ⟨rfl, [], (append_nil _).symm, rfl⟩

theorem carries_modifyInfo {g : HalInfo → HalInfo} (hg : (g r.info).state = r.info.state) :
    Carries [] (modifyInfo g) r :=
  ⟨hg, [], (append_nil _).symm, rfl⟩

theorem carries_emit (e : HalEffect) (r : HalRun) : Carries e.carried.toList (emit e) r := by
  refine ⟨rfl, [e], rfl, ?_⟩
  cases h : e.carried with
  | none => simp [h]
  | some c => simp [h]

theorem carries_halUpdateSleepTimer (r : HalRun) : Carries [] halUpdateSleepTimer r := by
  refine (carries_getInfo r).behind ?_
  split
  · exact carries_pure _ _
  · split
    · exact carries_emit _ _
    · exact carries_emit _ _

/-- A packet is sent. -/
theorem carries_halNciSend (pkt : NciPkt) (r : HalRun) :
    Carries [.sent (.ofBytes pkt.bytes)] (halNciSend pkt) r := by
  refine (carries_halUpdateSleepTimer r).behind ?_
  exact Carries.behind (carries_modifyInfo rfl) (carries_emit _ _)

theorem carries_nfcDataCallback (pkt : NciPkt) (r : HalRun) :
    Carries [.passed (.ofBytes pkt.bytes)] (nfcDataCallback pkt) r := carries_emit _ _

theorem carries_setSleepTimeout (ans : HalAnswers) (option timeout : ℕ) (r : HalRun) :
    Carries [] (setSleepTimeout ans option timeout) r := by
  refine carries_modifyInfo ?_
  dsimp only
  split_ifs <;> rfl

end Functions

/-! ## Commands and responses -/

/-- The header of a response of a proprietary group. -/
theorem propRsp_masks : (nciMtRsp ||| nciGidProp) &&& 0xE0 = nciMtRsp ∧
    (nciMtRsp ||| nciGidProp) &&& 0x0F = nciGidProp ∧
    nciPropWrReset &&& 0x3F = nciPropWrReset ∧
    nciPropSetSleepTime &&& 0x3F = nciPropSetSleepTime := by decide

/-- And of a reset. -/
theorem reset_masks : (nciMtCmd ||| nciGidCore) &&& 0x0F = nciGidCore ∧
    nciCoreReset &&& 0x3F = nciCoreReset := by decide

theorem mt_cmd_ne : nciMtCmd ≠ nciMtNtf ∧ nciMtRsp ≠ nciMtNtf ∧ nciMtRsp ≠ nciMtCmd := by decide

/-- The response the HAL makes up itself. -/
def sleepTimeRsp (pkt : NciPkt) : NciPkt := ⟨nciMtRsp ||| nciGidProp, pkt.nciOid, 1, [nciStatusOk]⟩

/-- What a command of the stack leads to. -/
def commandCarried (pkt : NciPkt) : Carried :=
  if pkt.isWrReset then
    .sent (.ofBytes (NciPkt.mk (nciMtCmd ||| nciGidCore) nciCoreReset 1 [1]).bytes)
  else if pkt.gid = nciGidProp ∧ pkt.nciOid = nciPropSetSleepTime then
    .passed (.ofBytes (sleepTimeRsp pkt).bytes)
  else .sent (.ofBytes pkt.bytes)

variable {param : List (BitVec 8)}

/-- **A command of the stack** is sent, or a reset is sent for it, or it is
answered at once. -/
theorem carries_command (ans : HalAnswers) (r : HalRun) (hmt : (NciPkt.ofBytes param).mt = nciMtCmd) :
    Carries [commandCarried (.ofBytes param)] (nfcHalServiceSm ans ⟨.write, param⟩) r := by
  have hpacket : HalMsg.nciPacket ⟨.write, param⟩ = NciPkt.ofBytes param := rfl
  unfold nfcHalServiceSm
  dsimp only
  rw [hpacket]
  generalize NciPkt.ofBytes param = pkt at hmt
  have hntf : ¬ pkt.mt = nciMtNtf := by
    rw [hmt]
    exact mt_cmd_ne.1
  unfold nfcHalPrehandler
  rw [if_neg hntf, if_pos hmt]
  unfold prehandleCmd commandCarried
  by_cases hgid : pkt.gid = nciGidProp
  · rw [if_pos hgid]
    by_cases hreset : pkt.nciOid = nciPropWrReset
    · have hwr : pkt.isWrReset := ⟨hgid, hreset⟩
      rw [if_pos hreset, if_pos hwr]
      have hsend := carries_halNciSend ⟨nciMtCmd ||| nciGidCore, nciCoreReset, 1, [1]⟩ r
      refine Carries.front ?_ (carries_pure _ _)
      refine Carries.front ?_ (carries_pure _ _)
      refine hsend.front ?_
      exact Carries.behind (carries_modifyInfo rfl) (carries_pure _ _)
    · have hwr : ¬ pkt.isWrReset := fun h => hreset h.2
      rw [if_neg hreset, if_neg hwr]
      by_cases hsleep : pkt.nciOid = nciPropSetSleepTime
      · rw [if_pos hsleep, if_pos ⟨hgid, hsleep⟩]
        refine Carries.front ?_ (carries_pure _ _)
        refine Carries.front ?_ (carries_pure _ _)
        refine Carries.behind ?_ (Carries.behind (carries_halUpdateSleepTimer _)
          (Carries.front (carries_nfcDataCallback _ _) (carries_pure _ _)))
        split
        · exact carries_setSleepTimeout ans _ _ _
        · exact carries_setSleepTimeout ans _ _ _
      · rw [if_neg hsleep, if_neg fun h => hsleep h.2]
        exact carries_halNciSend pkt r
  · have hwr : ¬ pkt.isWrReset := fun h => hgid h.1
    rw [if_neg hgid, if_neg hwr, if_neg fun h => hgid h.1]
    exact carries_halNciSend pkt r

/-- A response as the stack gets it. -/
def NciPkt.turned (pkt : NciPkt) : NciPkt :=
  if pkt.isReset then { pkt with oct0 := nciMtRsp ||| nciGidProp, oid := nciPropWrReset } else pkt

/-- **A response of the controller** is passed on, one to CORE_RESET as one to
PROP_WR_RESET. -/
theorem carries_response (ans : HalAnswers) (r : HalRun)
    (hmt : (NciPkt.ofBytes param).mt = nciMtRsp) :
    Carries [.passed (.ofBytes (NciPkt.ofBytes param).turned.bytes)]
      (nfcHalServiceSm ans ⟨.read, param⟩) r := by
  have hpacket : HalMsg.nciPacket ⟨.read, param⟩ = NciPkt.ofBytes param := rfl
  unfold nfcHalServiceSm
  dsimp only
  rw [hpacket]
  generalize NciPkt.ofBytes param = pkt at hmt
  refine (carries_halUpdateSleepTimer r).behind ?_
  have hntf : ¬ pkt.mt = nciMtNtf := by
    rw [hmt]
    exact mt_cmd_ne.2.1
  have hcmd : ¬ pkt.mt = nciMtCmd := by
    rw [hmt]
    exact mt_cmd_ne.2.2
  unfold nfcHalPrehandler NciPkt.turned
  rw [if_neg hntf, if_neg hcmd]
  by_cases hreset : pkt.isReset
  · have hturns : pkt.mt = nciMtRsp ∧ pkt.gid = nciGidCore ∧ pkt.nciOid = nciCoreReset :=
      ⟨hmt, hreset⟩
    rw [if_pos hturns, if_pos hreset]
    exact carries_nfcDataCallback _ _
  · have hstays : ¬ (pkt.mt = nciMtRsp ∧ pkt.gid = nciGidCore ∧ pkt.nciOid = nciCoreReset) :=
      fun h => hreset h.2
    rw [if_neg hstays, if_neg hreset]
    exact carries_nfcDataCallback pkt _

/-- What a message carries, handled in `HAL_STATE_SERVICE`. -/
theorem carried_handle {h : HalInfo} {ans : HalAnswers} {msg : HalMsg} {c : Carried}
    (hstate : h.state = .service) (hc : Carries [c] (nfcHalServiceSm ans msg) ⟨h, []⟩) :
    (h.handle ans msg).1.state = .service ∧
      (h.handle ans msg).2.filterMap HalEffect.carried = [c] := by
  obtain ⟨hkept, out, hout, hcarried⟩ := hc
  have hinfo : (h.handle ans msg).1 = (nfcHalServiceSm ans msg ⟨h, []⟩).2.info := by
    rw [← nfcHalTask_service ans msg hstate]
    rfl
  have heffects : (h.handle ans msg).2 = out := by
    have htask : (h.handle ans msg).2 = (nfcHalServiceSm ans msg ⟨h, []⟩).2.out := by
      rw [← nfcHalTask_service ans msg hstate]
      rfl
    rw [htask, hout, nil_append]
  rw [hinfo, heffects]
  exact ⟨hkept.trans hstate, hcarried⟩

/-- The response to the command that was sent for one. -/
def NciPkt.sentFor (sent cmd : NciPkt) : Prop :=
  if cmd.isWrReset then sent.isReset else sent.gid = cmd.gid ∧ sent.nciOid = cmd.nciOid

/-- The bytes of a packet hold its header. -/
theorem answers_ofBytes (pkt : NciPkt) (gid oid : BitVec 8) :
    (NciPkt.ofBytes pkt.bytes).answers gid oid ↔ pkt.answers gid oid := Iff.rfl

theorem not_isReset_of_isWrReset {pkt : NciPkt} (h : pkt.isWrReset) : ¬ pkt.isReset := fun hreset =>
  absurd (h.1.symm.trans hreset.1) (by decide)

/-- **A response is turned rightly** unless it is for a CORE_RESET. -/
theorem turned_answers_iff {pkt sent cmd : NciPkt} (hsent : sent.sentFor cmd)
    (hpkt : pkt.answers sent.gid sent.nciOid) :
    pkt.turned.answers cmd.gid cmd.nciOid ↔ ¬ cmd.isReset := by
  obtain ⟨hmt, hgid, hoid⟩ := hpkt
  have hturned : pkt.isReset → pkt.turned.answers nciGidProp nciPropWrReset := by
    intro hreset
    rw [NciPkt.turned, if_pos hreset]
    exact ⟨propRsp_masks.1, propRsp_masks.2.1, propRsp_masks.2.2.1⟩
  by_cases hwr : cmd.isWrReset
  · rw [NciPkt.sentFor, if_pos hwr] at hsent
    have hreset : pkt.isReset := ⟨hgid.trans hsent.1, hoid.trans hsent.2⟩
    rw [hwr.1, hwr.2]
    exact iff_of_true (hturned hreset) (not_isReset_of_isWrReset hwr)
  · rw [NciPkt.sentFor, if_neg hwr] at hsent
    by_cases hreset : cmd.isReset
    · have hpkt : pkt.isReset :=
        ⟨(hgid.trans hsent.1).trans hreset.1, (hoid.trans hsent.2).trans hreset.2⟩
      rw [hreset.1, hreset.2]
      refine iff_of_false (fun h => ?_) fun h => h hreset
      exact absurd ((hturned hpkt).2.1.symm.trans h.2.1) (by decide)
    · have hpkt : ¬ pkt.isReset := fun h =>
        hreset ⟨(hgid.trans hsent.1).symm.trans h.1, (hoid.trans hsent.2).symm.trans h.2⟩
      rw [NciPkt.turned, if_neg hpkt]
      exact iff_of_true ⟨hmt, hgid.trans hsent.1, hoid.trans hsent.2⟩ hreset

namespace Exchange

variable {ans : HalAnswers} {s : Exchange}

/-- **What the task keeps**: each command to answer was sent for one of the
stack. -/
structure Going (s : Exchange) : Prop where
  state : s.info.state = .service
  sentFor : ∀ c ∈ s.pending, c.2.sentFor c.1
  matching : s.Matching

variable {param : List (BitVec 8)}

/-- A command leaves the responses as they are, or is answered itself. -/
theorem Going.command (h : s.Going) (hmt : (NciPkt.ofBytes param).mt = nciMtCmd) :
    (s.next ans (.command param)).Going := by
  obtain ⟨hstate, hcarried⟩ :=
    carried_handle h.state (carries_command ans ⟨s.info, []⟩ hmt)
  refine ⟨hstate, ?_, ?_⟩
  · intro c hc
    simp only [next, handled, hcarried] at hc
    rcases mem_append.mp hc with hc | hc
    · exact h.sentFor c hc
    generalize NciPkt.ofBytes param = cmd at hc
    unfold commandCarried at hc
    by_cases hwr : cmd.isWrReset
    · rw [if_pos hwr] at hc
      rw [mem_singleton.mp hc, NciPkt.sentFor, if_pos hwr]
      exact reset_masks
    · rw [if_neg hwr] at hc
      split_ifs at hc
      · exact absurd hc not_mem_nil
      · rw [mem_singleton.mp hc, NciPkt.sentFor, if_neg hwr]
        exact ⟨rfl, rfl⟩
  · intro p hp
    simp only [next, handled, hcarried] at hp
    rcases mem_append.mp hp with hp | hp
    · exact h.matching p hp
    generalize NciPkt.ofBytes param = cmd at hp
    unfold commandCarried at hp
    split_ifs at hp with hwr hsleep
    · exact absurd hp not_mem_nil
    · rw [mem_singleton.mp hp, hsleep.1, hsleep.2]
      refine (answers_ofBytes (sleepTimeRsp cmd) _ _).mpr
        ⟨propRsp_masks.1, propRsp_masks.2.1, ?_⟩
      show cmd.nciOid &&& 0x3F = nciPropSetSleepTime
      rw [hsleep.2]
      exact propRsp_masks.2.2.2
    · exact absurd hp not_mem_nil

/-- **A response** is turned. -/
theorem next_response (ans : HalAnswers) {cmd sent : NciPkt} {rest : List (NciPkt × NciPkt)}
    (hstate : s.info.state = .service) (hpending : s.pending = (cmd, sent) :: rest)
    (hmt : (NciPkt.ofBytes param).mt = nciMtRsp) :
    (s.next ans (.response param)).info.state = .service ∧
      (s.next ans (.response param)).pending = rest ∧
      (s.next ans (.response param)).answered =
        s.answered ++ [(cmd, .ofBytes (NciPkt.ofBytes param).turned.bytes)] := by
  obtain ⟨hkept, hcarried⟩ := carried_handle hstate (carries_response ans ⟨s.info, []⟩ hmt)
  simp only [next, hpending, handled, hcarried]
  exact ⟨hkept, append_nil rest, rfl⟩

/-- It matches, unless it is for a CORE_RESET. -/
theorem Going.response_iff (ans : HalAnswers) (h : s.Going) (hex : s.Exchanging (.response param)) :
    (s.next ans (.response param)).Going ∧ s.NotForReset (.response param) ∨
      ¬ (s.next ans (.response param)).Matching ∧ ¬ s.NotForReset (.response param) := by
  obtain ⟨⟨cmd, sent⟩, hhead, hanswers⟩ := hex
  obtain ⟨rest, hpending⟩ := head?_eq_some_iff.mp hhead
  obtain ⟨hstate, hrest, hanswered⟩ := next_response ans h.state hpending hanswers.1
  have hsent : sent.sentFor cmd := h.sentFor (cmd, sent) (by simp [hpending])
  have hnot : s.NotForReset (.response param) ↔ ¬ cmd.isReset := by simp [NotForReset, hpending]
  have hiff := turned_answers_iff hsent hanswers
  by_cases hreset : cmd.isReset
  · refine .inr ⟨fun hmatching => ?_, fun hno => hnot.mp hno hreset⟩
    have hmem : (cmd, NciPkt.ofBytes (NciPkt.ofBytes param).turned.bytes) ∈
        (s.next ans (.response param)).answered := by
      rw [hanswered]
      exact mem_append_right _ (mem_singleton_self _)
    have hlast := hmatching _ hmem
    exact hiff.mp ((answers_ofBytes _ _ _).mp hlast) hreset
  · refine .inl ⟨⟨hstate, fun c hc => ?_, fun p hp => ?_⟩, hnot.mpr hreset⟩
    · rw [hrest] at hc
      exact h.sentFor c (by rw [hpending]; exact mem_cons_of_mem _ hc)
    · rw [hanswered] at hp
      rcases mem_append.mp hp with hp | hp
      · exact h.matching p hp
      · rw [mem_singleton.mp hp]
        exact (answers_ofBytes _ _ _).mpr (hiff.mpr hreset)

end Exchange

/-- **When every response answers its command**: in every exchange in
`HAL_STATE_SERVICE`, as long as no response is for a CORE_RESET of the stack. -/
theorem responses_match_iff (ans : HalAnswers) {h : HalInfo} (hstate : h.state = .service)
    {inputs : List ServiceInput}
    (hex : Run.Throughout (Exchange.next ans) Exchange.Exchanging ⟨h, [], []⟩ inputs) :
    Run.Always (Exchange.next ans) Exchange.Matching ⟨h, [], []⟩ inputs ↔
      Run.Throughout (Exchange.next ans) Exchange.NotForReset ⟨h, [], []⟩ inputs := by
  have hstart : (Exchange.mk h [] []).Going :=
    ⟨hstate, fun _ hc => absurd hc not_mem_nil, fun _ hp => absurd hp not_mem_nil⟩
  refine Run.Always.iff_throughout (I := Exchange.Going) (fun s hs => hs.matching) ?_ ?_ hstart hex
  · rintro s (param | param) hs hi hno
    · exact hs.command hi
    · rcases hs.response_iff ans hi with ⟨hgoing, -⟩ | ⟨-, hfor⟩
      · exact hgoing
      · exact absurd hno hfor
  · rintro s (param | param) hs hi hmatching
    · trivial
    · rcases hs.response_iff ans hi with ⟨-, hno⟩ | ⟨hnot, -⟩
      · exact hno
      · exact absurd hmatching hnot

/-- The HAL in `HAL_STATE_SERVICE`. -/
def serviceInfo : HalInfo := { HalInfo.zero with state := .service }

/-- PROP_WR_RESET and CORE_GET_CONFIG, and their responses. -/
theorem responses_match_wrReset :
    Run.Always (Exchange.next .plain) Exchange.Matching ⟨serviceInfo, [], []⟩
      [.command [0x2F, 0x2F, 0], .command [0x20, 0x03, 1, 0], .response [0x40, 0, 1, 0],
        .response [0x40, 0x03, 1, 0]] :=
  (responses_match_iff .plain rfl (by decide)).mpr (by decide)

/-- **The stack's own CORE_RESET** is answered by a response to PROP_WR_RESET. -/
theorem not_responses_match :
    ¬ ∀ inputs : List ServiceInput,
      Run.Throughout (Exchange.next .plain) Exchange.Exchanging ⟨serviceInfo, [], []⟩ inputs →
        Run.Always (Exchange.next .plain) Exchange.Matching ⟨serviceInfo, [], []⟩ inputs := by
  intro hall
  have h := hall [.command [0x20, 0, 1, 0], .response [0x40, 0, 1, 0]] (by decide)
  exact absurd h.last (by decide)

end ExynosVendor.Nfc
