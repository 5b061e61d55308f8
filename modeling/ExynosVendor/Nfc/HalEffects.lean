import ExynosVendor.Nfc.HalTask

/-!
# What the functions of the HAL do

A function of the HAL notes its effects behind those of its caller. `Does` says
of a call what it notes, as a property of the list of its effects, and `Emits`
as a property of each; the rules follow the binds of a function.
-/

namespace ExynosVendor.Nfc

variable {α β : Type} {m : HalM α} {f : α → HalM β} {r : HalRun}

/-- **What a call does** has a property. -/
def Does (Q : List HalEffect → Prop) (m : HalM α) (r : HalRun) : Prop :=
  ∃ out, (m r).2.out = r.out ++ out ∧ Q out

/-- And each effect of it. -/
def Emits (P : HalEffect → Prop) (m : HalM α) (r : HalRun) : Prop :=
  Does (fun out => ∀ e ∈ out, P e) m r

variable {P : HalEffect → Prop} {Q Q' Q'' : List HalEffect → Prop}

/-- **One call behind the other.** -/
theorem Does.bind (h : Does Q m r) (hf : Does Q' (f (m r).1) (m r).2)
    (hboth : ∀ out out', Q out → Q' out' → Q'' (out ++ out')) : Does Q'' (m >>= f) r := by
  obtain ⟨out, hout, hq⟩ := h
  obtain ⟨out', hout', hq'⟩ := hf
  refine ⟨out ++ out', ?_, hboth out out' hq hq'⟩
  show (f (m r).1 (m r).2).2.out = _
  rw [hout', hout, List.append_assoc]

theorem Does.mono (h : Does Q m r) (hq : ∀ out, Q out → Q' out) : Does Q' m r := by
  obtain ⟨out, hout, ho⟩ := h
  exact ⟨out, hout, hq out ho⟩

theorem does_emit {e : HalEffect} (hq : Q [e]) : Does Q (emit e) r := ⟨[e], rfl, hq⟩

theorem Emits.bind (h : Emits P m r) (hf : Emits P (f (m r).1) (m r).2) :
    Emits P (m >>= f) r := by
  refine Does.bind h hf fun out out' hout hout' e he => ?_
  rcases List.mem_append.mp he with he | he
  · exact hout e he
  · exact hout' e he

theorem emits_pure (a : α) (r : HalRun) : Emits P (pure a : HalM α) r :=
  ⟨[], (List.append_nil _).symm, fun _ he => absurd he List.not_mem_nil⟩

theorem emits_getInfo (r : HalRun) : Emits P getInfo r :=
  ⟨[], (List.append_nil _).symm, fun _ he => absurd he List.not_mem_nil⟩

theorem emits_modifyInfo (f : HalInfo → HalInfo) (r : HalRun) : Emits P (modifyInfo f) r :=
  ⟨[], (List.append_nil _).symm, fun _ he => absurd he List.not_mem_nil⟩

theorem emits_emit {e : HalEffect} (he : P e) (r : HalRun) : Emits P (emit e) r := by
  refine ⟨[e], rfl, fun a ha => ?_⟩
  rw [List.mem_singleton.mp ha]
  exact he

theorem emits_halUpdateSleepTimer
    (hsleep : ∀ timeout, P (.timerStart .sleep timeout .halSleep)) (r : HalRun) :
    Emits P halUpdateSleepTimer r := by
  refine (emits_getInfo r).bind ?_
  split
  · exact emits_pure _ _
  · split
    · exact emits_emit (hsleep _) _
    · exact emits_emit (hsleep _) _

/-- **A packet is sent.** -/
theorem emits_halNciSend {pkt : NciPkt}
    (hsleep : ∀ timeout, P (.timerStart .sleep timeout .halSleep))
    (hwrite : P (.write pkt.bytes)) (r : HalRun) : Emits P (halNciSend pkt) r := by
  refine (emits_halUpdateSleepTimer hsleep r).bind ?_
  exact (emits_modifyInfo _ _).bind (emits_emit hwrite _)

theorem nfcHalTask_eq (ans : HalAnswers) (msg : HalMsg) (r : HalRun) :
    nfcHalTask ans msg r = (match r.info.state with
      | .init | .deinit | .open => nfcHalOpenSm ans msg
      | .fw => nfcHalFwSm ans msg
      | .vs => nfcHalVsSm ans msg
      | .postinit => nfcHalPostinitSm ans msg
      | .service => nfcHalServiceSm ans msg
      | .granted => nfcHalGrantSm msg
      | .powercycle => nfcHalPowerSm ans msg
      | .close => return) r := rfl

theorem nfcHalTask_postinit (ans : HalAnswers) (msg : HalMsg) (hstate : r.info.state = .postinit) :
    nfcHalTask ans msg r = nfcHalPostinitSm ans msg r := by
  rw [nfcHalTask_eq, hstate]

theorem nfcHalTask_service (ans : HalAnswers) (msg : HalMsg) (hstate : r.info.state = .service) :
    nfcHalTask ans msg r = nfcHalServiceSm ans msg r := by
  rw [nfcHalTask_eq, hstate]

theorem nfcHalTask_open (ans : HalAnswers) (msg : HalMsg)
    (hstate : r.info.state = .init ∨ r.info.state = .deinit ∨ r.info.state = .open) :
    nfcHalTask ans msg r = nfcHalOpenSm ans msg r := by
  rcases hstate with hstate | hstate | hstate
  · rw [nfcHalTask_eq, hstate]
  · rw [nfcHalTask_eq, hstate]
  · rw [nfcHalTask_eq, hstate]

theorem nfcHalTask_fw (ans : HalAnswers) (msg : HalMsg) (hstate : r.info.state = .fw) :
    nfcHalTask ans msg r = nfcHalFwSm ans msg r := by
  rw [nfcHalTask_eq, hstate]

/-- **What a message leads to.** -/
theorem Does.handle {h : HalInfo} {ans : HalAnswers} {msg : HalMsg}
    (hdoes : Does Q (nfcHalTask ans msg) ⟨h, []⟩) : Q (h.handle ans msg).2 := by
  obtain ⟨out, hout, hq⟩ := hdoes
  show Q (nfcHalTask ans msg ⟨h, []⟩).2.out
  rw [hout]
  exact hq

end ExynosVendor.Nfc
