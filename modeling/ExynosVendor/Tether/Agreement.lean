import ExynosVendor.Common.Run
import ExynosVendor.Tether.Offload
import Mathlib.Data.List.ReduceOption

/-!
# What a refused call leaves behind

The HAL and the driver should agree on whether the offload is on and on which downstream
interfaces there are, and a call that reports `false` should have changed neither. Most
calls touch a member before the last thing that can fail, so for each the law is a
condition on the state before the call and on what the call was given.
-/

namespace ExynosVendor.Tether

/-- **The HAL and the driver agree** on whether the offload is on, and on the downstream
interfaces. -/
structure Agree (s : System) : Prop where
  initialised : s.hal.isInitialized = s.driver.initialised
  downstreams : (s.hal.mDownstreams.map fun ds => ifname ds.iface : Multiset Str) =
    s.driver.downstreams

/-- **What a call should do**, given what it reported and the system that it left: if
it was refused, nothing; a `setLocalPrefixes` touches the local prefixes only; and the
HAL and the driver agree afterwards. -/
structure Lawful (s : System) (c : Call) (r : Bool × System) : Prop where
  refused : r.1 = false → r.2 = s
  localPrefixes : ∀ prefixes, c = .setLocalPrefixes prefixes →
    { r.2 with hal := { r.2.hal with mLocalPrefixes := s.hal.mLocalPrefixes } } = s
  agree : Agree r.2

variable {env : Env} {s : System} {c : Call}

theorem agree_initial (limit : ℕ) : Agree (System.initial limit) where
  initialised := rfl
  downstreams := rfl

/-- A refusal that leaves the system alone is lawful. -/
theorem lawful_refused (h : Agree s) : Lawful s c (false, s) where
  refused _ := rfl
  localPrefixes _ _ := rfl
  agree := h

theorem lawful_refused_iff {s' : System} (h : Agree s) : Lawful s c (false, s') ↔ s' = s := by
  constructor
  · intro hl
    exact hl.refused rfl
  · rintro rfl
    exact lawful_refused h

/-- What a call that is not `setLocalPrefixes` reports as done only has to agree. -/
theorem lawful_done_iff {s' : System} (hc : ∀ prefixes, c ≠ .setLocalPrefixes prefixes) :
    Lawful s c (true, s') ↔ Agree s' := by
  constructor
  · exact Lawful.agree
  · intro h
    exact ⟨fun hf => Bool.noConfusion hf, fun p hp => absurd hp (hc p), h⟩

/-! ## Switching the offload on and off -/

theorem initOffload_lawful_iff (cb : Option ℕ) (h : Agree s) :
    Lawful s (.initOffload cb) (initOffload env s cb) ↔
      (s.hal.isInitialized = false → cb.isSome = env.ioctl) := by
  have hcb : s.hal.isInitialized = s.hal.mCtrlCb.isSome := rfl
  unfold initOffload
  split
  · rename_i hinit
    simp only [hinit, Bool.true_eq_false, false_imp_iff, iff_true]
    exact lawful_refused h
  · rename_i hinit
    rw [Bool.not_eq_true] at hinit
    have hnone : s.hal.mCtrlCb = none := by simpa [hcb] using hinit
    simp only [hinit, forall_const]
    cases hio : env.ioctl with
    | true =>
      simp only [if_true]
      rw [lawful_done_iff (by simp)]
      constructor
      · intro ha
        exact ha.initialised
      · intro hsome
        exact ⟨hsome, h.downstreams⟩
    | false =>
      simp only [Bool.false_eq_true, if_false]
      rw [lawful_refused_iff h]
      constructor
      · intro heq
        have : cb = s.hal.mCtrlCb := congrArg (fun s => s.hal.mCtrlCb) heq
        rw [this, hnone, Option.isSome_none]
      · intro hsome
        have : cb = none := by simpa using hsome
        rw [this, ← hnone]

theorem stopOffload_lawful_iff (h : Agree s) :
    Lawful s .stopOffload (stopOffload env s) ↔
      (s.hal.isInitialized → s.hal.mUpstream.iface ≠ [] ∧ env.ioctl) := by
  have hcb : s.hal.isInitialized = s.hal.mCtrlCb.isSome := rfl
  unfold stopOffload
  by_cases hinit : s.hal.isInitialized
  · -- The callback is gone before anything is checked.
    have hchanged : ∀ s' : System, s'.hal.mCtrlCb = none → s' ≠ s := by
      intro s' hs' heq
      rw [hcb, ← heq, hs'] at hinit
      exact Bool.noConfusion hinit
    simp only [hinit, if_true, forall_const]
    by_cases hiface : s.hal.mUpstream.iface = []
    · simp only [hiface, if_true, ne_eq, not_true, false_and, iff_false]
      rw [lawful_refused_iff h]
      exact hchanged _ rfl
    · cases hio : env.ioctl with
      | true =>
        simp only [hiface, if_false, if_true, ne_eq, not_false_eq_true, and_self, iff_true]
        rw [lawful_done_iff (by simp)]
        exact ⟨rfl, h.downstreams⟩
      | false =>
        simp only [hiface, if_false, Bool.false_eq_true, and_false, iff_false]
        rw [lawful_refused_iff h]
        exact hchanged _ rfl
  · simp only [hinit, Bool.false_eq_true, if_false, false_imp_iff, iff_true]
    exact lawful_refused h

section Addresses

variable (inetPton : AddressFamily → Str → Bool)

/-! ## The local prefixes -/

/-- The first loop reads nothing only when there is nothing to read, or the first prefix
is refused. -/
theorem checkPrefixes_eq_nil_iff (prefixes : List Str) :
    (checkPrefixes inetPton prefixes).1 = [] ↔
      ∀ p ∈ prefixes.head?, p ≠ [] ∧ parseAddress inetPton p = none := by
  cases prefixes with
  | nil => simp [checkPrefixes]
  | cons p prefixes =>
    unfold checkPrefixes
    by_cases hp : p = []
    · simp [hp]
    · cases hparse : parseAddress inetPton p with
      | none => simp [hp, hparse]
      | some parsed => simp [hp, hparse]

theorem checkPrefixes_snd {p : Str} (prefixes : List Str) (hp : p ≠ [])
    (hparse : parseAddress inetPton p = none) :
    checkPrefixes inetPton (p :: prefixes) = ([], false) := by
  simp [checkPrefixes, hp, hparse]

theorem setLocalPrefixes_lawful_iff (prefixes : List Str) (h : Agree s) :
    Lawful s (.setLocalPrefixes prefixes) (setLocalPrefixes inetPton s prefixes) ↔
      (s.hal.isInitialized → ∀ p ∈ prefixes.head?, p ≠ [] ∧ parseAddress inetPton p = none) := by
  unfold setLocalPrefixes
  by_cases hinit : s.hal.isInitialized
  · cases prefixes with
    | nil => simpa [hinit] using lawful_refused h
    | cons p prefixes =>
      rw [← checkPrefixes_eq_nil_iff]
      have hlen : ¬ (p :: prefixes).length < 1 := by simp
      simp only [hinit, Bool.true_eq_false, if_false, hlen, forall_const]
      constructor
      · -- Whatever the call reports, the gateways are the ones from before.
        intro hl
        have hgws := congrArg (fun s => s.hal.mUpstream.v6Gws) (hl.localPrefixes _ rfl)
        split at hgws
        · simpa using hgws
        · simpa using hgws
      · intro hnil
        have hhead := (checkPrefixes_eq_nil_iff inetPton (p :: prefixes)).mp hnil p (by simp)
        have hchecked := checkPrefixes_snd inetPton prefixes hhead.1 hhead.2
        simp only [hchecked, Bool.false_eq_true, if_false, List.append_nil]
        exact lawful_refused h
  · simpa [hinit] using lawful_refused h

/-! ## The upstream -/

/-- The address of a gateway, if it is one. -/
def gateway (v6gw : Str) : Option Str :=
  if v6gw = [] then none else parseFamily inetPton .inet6 v6gw

/-- The gateways ahead of the first that is refused. -/
def leading (v6Gws : List Str) : List Str :=
  ((v6Gws.map (gateway inetPton)).takeWhile Option.isSome).reduceOption

/-- **What the loop over the gateways does**: it keeps those ahead of the first that is
refused, and goes through when none is. -/
theorem loadGateways_eq (v6Gws : List Str) :
    loadGateways inetPton v6Gws =
      (leading inetPton v6Gws, decide (∀ gw ∈ v6Gws, (gateway inetPton gw).isSome)) := by
  induction v6Gws with
  | nil => rfl
  | cons gw v6Gws ih =>
    cases hgw : gateway inetPton gw with
    | none =>
      have hstop : loadGateways inetPton (gw :: v6Gws) = ([], false) := by
        unfold loadGateways
        unfold gateway at hgw
        split at hgw <;> simp_all
      simp [hstop, hgw, leading]
    | some addr =>
      have hgo : loadGateways inetPton (gw :: v6Gws) =
          (addr :: (loadGateways inetPton v6Gws).1, (loadGateways inetPton v6Gws).2) := by
        unfold gateway at hgw
        split at hgw
        · exact absurd hgw (by simp)
        · rename_i hne
          rw [loadGateways, if_neg hne, hgw]
      rw [hgo, ih]
      simp [hgw, leading, List.reduceOption_cons_of_some]

theorem loadGateways_refused {v6Gws : List Str} (h : ∃ gw ∈ v6Gws, gateway inetPton gw = none) :
    loadGateways inetPton v6Gws = (leading inetPton v6Gws, false) := by
  obtain ⟨gw, hmem, hgw⟩ := h
  rw [loadGateways_eq, decide_eq_false]
  intro hall
  simpa [hgw] using hall gw hmem

theorem loadGateways_accepted {v6Gws : List Str}
    (h : ¬ ∃ gw ∈ v6Gws, gateway inetPton gw = none) :
    loadGateways inetPton v6Gws = (leading inetPton v6Gws, true) := by
  rw [loadGateways_eq, decide_eq_true]
  intro gw hmem
  by_contra hgw
  exact h ⟨gw, hmem, by simpa using hgw⟩

theorem loadV4_eq_none_iff (str stored : Str) :
    loadV4 inetPton str stored = none ↔ str ≠ [] ∧ parseFamily inetPton .inet str = none := by
  unfold loadV4
  split
  · rename_i hstr
    simp [hstr]
  · rename_i hstr
    simp [hstr]

theorem loadV4_eq_some_iff (str stored : Str) :
    loadV4 inetPton str stored = some stored ↔
      str = [] ∨ parseFamily inetPton .inet str = some stored := by
  unfold loadV4
  split
  · rename_i hstr
    simp [hstr]
  · rename_i hstr
    simp [hstr]

/-- **When `setUpstreamParameters` keeps the law**: when it goes through, or what it has
written by the time that it is refused was there already. -/
def UpstreamMeets (env : Env) (s : System) (iface v4Addr v4Gw : Str) (v6Gws : List Str) : Prop :=
  if (∃ gw ∈ v6Gws, gateway inetPton gw = none) ∨ iface = [] then
    s.hal.mUpstream.v6Gws = leading inetPton v6Gws
  else if checkInterfaceStat env iface = false ∨ env.ioctl = false then
    s.hal.mUpstream.v6Gws = leading inetPton v6Gws ∧ s.hal.mUpstream.iface = iface
  else if v4Addr ≠ [] ∧ parseFamily inetPton .inet v4Addr = none then
    s.hal.mUpstream.v6Gws = leading inetPton v6Gws ∧ s.hal.mUpstream.iface = iface ∧
      s.driver.upstream = some (ifname iface)
  else if v4Gw ≠ [] ∧ parseFamily inetPton .inet v4Gw = none then
    s.hal.mUpstream.v6Gws = leading inetPton v6Gws ∧ s.hal.mUpstream.iface = iface ∧
      s.driver.upstream = some (ifname iface) ∧
      (v4Addr = [] ∨ parseFamily inetPton .inet v4Addr = some s.hal.mUpstream.v4Addr)
  else True

theorem setUpstreamParameters_lawful_iff (iface v4Addr v4Gw : Str) (v6Gws : List Str)
    (h : Agree s) :
    Lawful s (.setUpstreamParameters iface v4Addr v4Gw v6Gws)
        (setUpstreamParameters inetPton env s iface v4Addr v4Gw v6Gws) ↔
      (s.hal.isInitialized → UpstreamMeets inetPton env s iface v4Addr v4Gw v6Gws) := by
  by_cases hinit : s.hal.isInitialized
  swap
  · unfold setUpstreamParameters
    simpa [hinit] using lawful_refused h
  unfold setUpstreamParameters UpstreamMeets
  simp only [hinit, Bool.true_eq_false, if_false, forall_const]
  by_cases hgws : ∃ gw ∈ v6Gws, gateway inetPton gw = none
  · rw [loadGateways_refused inetPton hgws]
    simp only [hgws, if_true, true_or]
    rw [lawful_refused_iff h]
    simp [System.ext_iff, Tetheroffload.ext_iff, UIfaceinfo.ext_iff, eq_comm]
  rw [loadGateways_accepted inetPton hgws]
  by_cases hiface : iface = []
  · simp only [hiface, Bool.true_eq_false, if_true, if_false, or_true]
    rw [lawful_refused_iff h]
    simp [System.ext_iff, Tetheroffload.ext_iff, UIfaceinfo.ext_iff, eq_comm]
  simp only [hgws, hiface, Bool.true_eq_false, if_false, or_self]
  by_cases hstat : checkInterfaceStat env iface = false
  · simp only [hstat, if_true, true_or]
    rw [lawful_refused_iff h]
    simp [System.ext_iff, Tetheroffload.ext_iff, UIfaceinfo.ext_iff, eq_comm, and_comm]
  by_cases hio : env.ioctl = false
  · simp only [hstat, hio, Bool.true_eq_false, if_true, if_false, or_true]
    rw [lawful_refused_iff h]
    simp [System.ext_iff, Tetheroffload.ext_iff, UIfaceinfo.ext_iff, eq_comm, and_comm]
  -- From here on the driver has the new upstream.
  simp only [hstat, hio, Bool.true_eq_false, if_false, or_self]
  cases hAddr : loadV4 inetPton v4Addr s.hal.mUpstream.v4Addr with
  | none =>
    rw [if_pos ((loadV4_eq_none_iff inetPton v4Addr _).mp hAddr), lawful_refused_iff h]
    simp [System.ext_iff, Tetheroffload.ext_iff, UIfaceinfo.ext_iff, Driver.ext_iff, eq_comm,
      and_comm, and_assoc, and_left_comm]
  | some addr =>
    rw [if_neg fun hbad => by simp [(loadV4_eq_none_iff inetPton v4Addr _).mpr hbad] at hAddr]
    cases hGw : loadV4 inetPton v4Gw s.hal.mUpstream.v4Gw with
    | none =>
      rw [if_pos ((loadV4_eq_none_iff inetPton v4Gw _).mp hGw), lawful_refused_iff h,
        ← loadV4_eq_some_iff, hAddr]
      simp [System.ext_iff, Tetheroffload.ext_iff, UIfaceinfo.ext_iff, Driver.ext_iff, eq_comm,
        and_comm, and_assoc, and_left_comm]
    | some gw =>
      rw [if_neg fun hbad => by simp [(loadV4_eq_none_iff inetPton v4Gw _).mpr hbad] at hGw]
      simp only [iff_true]
      rw [lawful_done_iff (by simp)]
      exact ⟨h.initialised, h.downstreams⟩

/-! ## The data limit -/

theorem setDataLimit_lawful_iff (upstream : Str) (limit : ℕ) (h : Agree s) :
    Lawful s (.setDataLimit upstream limit) (setDataLimit env s upstream limit) ↔
      (s.hal.isInitialized ∧ s.hal.mUpstream.iface = upstream ∧ checkInterfaceStat env upstream ∧
        env.ioctl = false → s.hal.mUpstream.limit = limit) := by
  unfold setDataLimit
  by_cases hinit : s.hal.isInitialized
  swap
  · simpa [hinit] using lawful_refused h
  by_cases hiface : s.hal.mUpstream.iface = upstream
  swap
  · simpa [hiface] using lawful_refused h
  by_cases hstat : checkInterfaceStat env upstream
  swap
  · simpa [hinit, hiface, hstat] using lawful_refused h
  simp only [hinit, hiface, hstat, Bool.true_eq_false, ne_eq, not_true, if_true, if_false, true_and]
  cases hio : env.ioctl with
  | true =>
    simp only [if_true, Bool.true_eq_false, false_imp_iff, iff_true]
    rw [lawful_done_iff (by simp)]
    exact ⟨h.initialised, h.downstreams⟩
  | false =>
    simp only [Bool.false_eq_true, if_false, forall_const]
    rw [lawful_refused_iff h]
    simp [System.ext_iff, Tetheroffload.ext_iff, UIfaceinfo.ext_iff, hiface, eq_comm]

/-! ## The downstreams -/

theorem addDownstream_lawful_iff (iface dPrefix : Str) (h : Agree s) :
    Lawful s (.addDownstream iface dPrefix) (addDownstream inetPton env s iface dPrefix) ↔
      (checkDownstream inetPton env s iface dPrefix → env.ioctl) := by
  unfold addDownstream
  by_cases hcheck : checkDownstream inetPton env s iface dPrefix
  swap
  · simpa [hcheck] using lawful_refused h
  simp only [hcheck, if_true, forall_const]
  cases hio : env.ioctl with
  | true =>
    simp only [if_true, iff_true]
    rw [lawful_done_iff (by simp)]
    refine ⟨h.initialised, ?_⟩
    rw [← h.downstreams, List.map_append, ← Multiset.coe_add, Multiset.add_comm]
    rfl
  | false =>
    simp only [Bool.false_eq_true, if_false, iff_false]
    rw [lawful_refused_iff h]
    simp [System.ext_iff, Tetheroffload.ext_iff]

theorem coe_eraseIdx {α : Type*} [DecidableEq α] {xs : List α} {i : ℕ} {x : α}
    (h : xs[i]? = some x) : (xs.eraseIdx i : Multiset α) = (xs : Multiset α).erase x := by
  obtain ⟨hi, hx⟩ := List.getElem?_eq_some_iff.mp h
  have hperm : (x :: xs.eraseIdx i).Perm xs := by
    rw [← hx]
    exact List.getElem_cons_eraseIdx_perm hi
  rw [← Multiset.coe_eq_coe.mpr hperm, ← Multiset.cons_coe, Multiset.erase_cons_head]

/-- **`removeDownstream` keeps the law**, whatever fails. -/
theorem removeDownstream_lawful (iface dPrefix : Str) (h : Agree s) :
    Lawful s (.removeDownstream iface dPrefix)
      (removeDownstream inetPton env s iface dPrefix) := by
  unfold removeDownstream
  split
  swap
  · exact lawful_refused h
  split
  · exact lawful_refused h
  · rename_i i hfind
    split
    swap
    · exact lawful_refused h
    obtain ⟨hi, -, -⟩ := List.findIdx?_eq_some_iff_getElem.mp hfind
    rw [lawful_done_iff (by simp)]
    refine ⟨h.initialised, ?_⟩
    have hname : (s.hal.mDownstreams.map fun ds => ifname ds.iface)[i]? =
        some (ifname (s.hal.mDownstreams[i]?.elim [] DIfaceinfo.iface)) := by
      simp [List.getElem?_eq_getElem hi]
    have herase := coe_eraseIdx hname
    rw [h.downstreams] at herase
    rw [← herase, List.eraseIdx_map]

/-! ## Every call -/

/-- **When a call keeps the law**: what it changes ahead of the last thing that can fail is
as it was, or nothing fails. -/
def Meets (env : Env) (s : System) : Call → Prop
  | .initOffload cb => s.hal.isInitialized = false → cb.isSome = env.ioctl
  | .stopOffload => s.hal.isInitialized → s.hal.mUpstream.iface ≠ [] ∧ env.ioctl
  | .setLocalPrefixes prefixes =>
      s.hal.isInitialized → ∀ p ∈ prefixes.head?, p ≠ [] ∧ parseAddress inetPton p = none
  | .setUpstreamParameters iface v4Addr v4Gw v6Gws =>
      s.hal.isInitialized → UpstreamMeets inetPton env s iface v4Addr v4Gw v6Gws
  | .setDataLimit upstream limit =>
      s.hal.isInitialized ∧ s.hal.mUpstream.iface = upstream ∧ checkInterfaceStat env upstream ∧
        env.ioctl = false → s.hal.mUpstream.limit = limit
  | .addDownstream iface dPrefix =>
      checkDownstream inetPton env s iface dPrefix → env.ioctl
  | .removeDownstream _ _ => True

theorem lawful_call_iff (env : Env) (c : Call) (h : Agree s) :
    Lawful s c (call inetPton env s c) ↔ Meets inetPton env s c := by
  cases c with
  | initOffload cb => exact initOffload_lawful_iff cb h
  | stopOffload => exact stopOffload_lawful_iff h
  | setLocalPrefixes prefixes => exact setLocalPrefixes_lawful_iff inetPton prefixes h
  | setUpstreamParameters iface v4Addr v4Gw v6Gws =>
    exact setUpstreamParameters_lawful_iff inetPton iface v4Addr v4Gw v6Gws h
  | setDataLimit upstream limit => exact setDataLimit_lawful_iff upstream limit h
  | addDownstream iface dPrefix => exact addDownstream_lawful_iff inetPton iface dPrefix h
  | removeDownstream iface dPrefix =>
    exact iff_of_true (removeDownstream_lawful inetPton iface dPrefix h) trivial

/-- One call after another, each with what the system answers to it. -/
def next (s : System) (step : Env × Call) : System := (call inetPton step.1 s step.2).2

/-- **The history of a HAL is lawful**: every call of it does what it should, in the system
that the calls before it left. -/
def LawfulHistory (limit : ℕ) (history : List (Env × Call)) : Prop :=
  Run.Throughout (next inetPton)
    (fun s step => Lawful s step.2 (call inetPton step.1 s step.2)) (System.initial limit) history

/-- **A history is lawful exactly when every call of it meets its condition** in the system
that the calls before it left. -/
theorem lawfulHistory_iff (limit : ℕ) (history : List (Env × Call)) :
    LawfulHistory inetPton limit history ↔
      Run.Throughout (next inetPton) (fun s step => Meets inetPton step.1 s step.2)
        (System.initial limit) history :=
  Run.Throughout.iff_of_invariant (fun _ _ _ hlawful => hlawful.agree)
    (fun _ step hs => lawful_call_iff inetPton step.1 step.2 hs) (agree_initial limit)

end Addresses

/-- **A first `INIT` that fails is not forgotten**: the callback stays, so `initOffload` has
reported `false` and left the HAL switched on. -/
theorem not_lawfulHistory :
    ¬ ∀ (inetPton : AddressFamily → Str → Bool) (limit : ℕ) (history : List (Env × Call)),
      LawfulHistory inetPton limit history := by
  intro h
  have hfirst := (h (fun _ _ => true) 0 [(⟨false, true⟩, .initOffload (some 1))]).1
  have hkept := congrArg (fun s => s.hal.mCtrlCb) (hfirst.refused rfl)
  exact Option.some_ne_none 1 hkept

end ExynosVendor.Tether
