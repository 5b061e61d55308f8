import Mathlib.Data.List.Basic

/-!
# Runs of a machine

A machine takes its inputs one after the other. A property may hold in
every state a run passes through, and a condition of every input in the
state it is taken in; the invariant rule leads from the one to the other.
-/

namespace ExynosVendor.Run

variable {σ ι : Type} (step : σ → ι → σ)

/-- **A property holds in every state** a run passes through. -/
def Always (P : σ → Prop) : σ → List ι → Prop
  | s, [] => P s
  | s, i :: inputs => P s ∧ Always P (step s i) inputs

/-- **A condition holds of every input** in the state it is taken in. -/
def Throughout (C : σ → ι → Prop) : σ → List ι → Prop
  | _, [] => True
  | s, i :: inputs => C s i ∧ Throughout C (step s i) inputs

instance Throughout.decidable {C : σ → ι → Prop} [∀ s i, Decidable (C s i)] : (s : σ) → (inputs : List ι) →
    Decidable (Throughout step C s inputs)
  | _, [] => isTrue trivial
  | s, i :: inputs =>
      have : Decidable (Throughout step C (step s i) inputs) := decidable (step s i) inputs
      inferInstanceAs (Decidable (C s i ∧ Throughout step C (step s i) inputs))

variable {step} {P Q : σ → Prop} {C D : σ → ι → Prop}

variable {s : σ} {inputs : List ι} {I : σ → Prop}

theorem Always.head (h : Always step P s inputs) : P s := by
  cases inputs with
  | nil => exact h
  | cons i inputs => exact h.1

theorem Always.mono (h : Always step P s inputs) (hPQ : ∀ s, P s → Q s) :
    Always step Q s inputs := by
  induction inputs generalizing s with
  | nil => exact hPQ s h
  | cons i inputs ih => exact ⟨hPQ s h.1, ih h.2⟩

theorem Always.last (h : Always step P s inputs) :
    P (inputs.foldl step s) := by
  induction inputs generalizing s with
  | nil => exact h
  | cons i inputs ih => exact ih h.2

theorem Throughout.of_forall {C : ι → Prop} (s : σ) (h : ∀ i ∈ inputs, C i) :
    Throughout step (fun _ i => C i) s inputs := by
  induction inputs generalizing s with
  | nil => trivial
  | cons i inputs ih =>
    exact ⟨h i List.mem_cons_self, ih (step s i) fun j hj => h j (List.mem_cons_of_mem i hj)⟩

theorem Throughout.of_all (s : σ) (inputs : List ι) (h : ∀ s i, C s i) :
    Throughout step C s inputs := by
  induction inputs generalizing s with
  | nil => trivial
  | cons i inputs ih => exact ⟨h s i, ih (step s i)⟩

theorem Throughout.and (h : Throughout step C s inputs) (h' : Throughout step D s inputs) :
    Throughout step (fun s i => C s i ∧ D s i) s inputs := by
  induction inputs generalizing s with
  | nil => trivial
  | cons i inputs ih => exact ⟨⟨h.1, h'.1⟩, ih h.2 h'.2⟩

/-- **A run in two parts.** -/
theorem Throughout.append {inputs' : List ι} (h : Throughout step C s (inputs ++ inputs')) :
    Throughout step C s inputs ∧ Throughout step C (inputs.foldl step s) inputs' := by
  induction inputs generalizing s with
  | nil => exact ⟨trivial, h⟩
  | cons i inputs ih =>
    obtain ⟨hhead, htail⟩ := h
    obtain ⟨hfirst, hsecond⟩ := ih htail
    exact ⟨⟨hhead, hfirst⟩, hsecond⟩

theorem Throughout.mono (h : Throughout step C s inputs) (hCD : ∀ s i, C s i → D s i) :
    Throughout step D s inputs := by
  induction inputs generalizing s with
  | nil => trivial
  | cons i inputs ih => exact ⟨hCD s i h.1, ih h.2⟩

/-- **The invariant rule.** -/
theorem Always.of_invariant (hstep : ∀ s i, P s → C s i → P (step s i)) (hs : P s)
    (h : Throughout step C s inputs) :
    Always step P s inputs := by
  induction inputs generalizing s with
  | nil => exact hs
  | cons i inputs ih => exact ⟨hs, ih (hstep s i hs h.1) h.2⟩

/-- And what the invariant and the condition say of a step holds of every
step. -/
theorem Throughout.of_invariant (hstep : ∀ s i, P s → C s i → P (step s i))
    (hD : ∀ s i, P s → C s i → D s i) (hs : P s) (h : Throughout step C s inputs) :
    Throughout step D s inputs := by
  induction inputs generalizing s with
  | nil => trivial
  | cons i inputs ih => exact ⟨hD s i hs h.1, ih (hstep s i hs h.1) h.2⟩

/-- **Two conditions that the invariant makes the same** hold of the same runs, when the
first keeps the invariant. -/
theorem Throughout.iff_of_invariant (hstep : ∀ s i, P s → C s i → P (step s i))
    (hiff : ∀ s i, P s → (C s i ↔ D s i)) (hs : P s) :
    Throughout step C s inputs ↔ Throughout step D s inputs := by
  induction inputs generalizing s with
  | nil => exact Iff.rfl
  | cons i inputs ih =>
    constructor
    · intro h
      exact ⟨(hiff s i hs).mp h.1, (ih (hstep s i hs h.1)).mp h.2⟩
    · intro h
      have hC := (hiff s i hs).mpr h.1
      exact ⟨hC, (ih (hstep s i hs hC)).mpr h.2⟩

variable {E : σ → ι → Prop}

/-- **When a property holds all along.** The environment keeps to `E`, the
invariant gives the property and is kept by the steps that meet the
condition, and the property fails after those that do not. -/
theorem Always.iff_throughout (hI : ∀ s, I s → P s)
    (hstep : ∀ s i, I s → E s i → C s i → I (step s i))
    (hback : ∀ s i, I s → E s i → P (step s i) → C s i) (hs : I s) (hE : Throughout step E s inputs) :
    Always step P s inputs ↔ Throughout step C s inputs := by
  induction inputs generalizing s with
  | nil => exact ⟨fun _ => trivial, fun _ => hI s hs⟩
  | cons i inputs ih =>
    obtain ⟨hi, hrest⟩ := hE
    constructor
    · rintro ⟨-, htail⟩
      have hC := hback s i hs hi htail.head
      exact ⟨hC, (ih (hstep s i hs hi hC) hrest).mp htail⟩
    · rintro ⟨hC, htail⟩
      exact ⟨hI s hs, (ih (hstep s i hs hi hC) hrest).mpr htail⟩

/-- **When a property holds all along and every step does its duty**, where
the environment keeps to `E`. -/
theorem Always.and_throughout_iff_of (hI : ∀ s, I s → P s)
    (hstep : ∀ s i, I s → E s i → C s i → I (step s i) ∧ D s i)
    (hback : ∀ s i, I s → E s i → P (step s i) → D s i → C s i) (hs : I s)
    (hE : Throughout step E s inputs) :
    Always step P s inputs ∧ Throughout step D s inputs ↔ Throughout step C s inputs := by
  induction inputs generalizing s with
  | nil => exact ⟨fun _ => trivial, fun _ => ⟨hI s hs, trivial⟩⟩
  | cons i inputs ih =>
    obtain ⟨hi, hrestE⟩ := hE
    constructor
    · rintro ⟨⟨-, halways⟩, hD, hrest⟩
      have hC := hback s i hs hi halways.head hD
      exact ⟨hC, (ih (hstep s i hs hi hC).1 hrestE).mp ⟨halways, hrest⟩⟩
    · rintro ⟨hC, hrest⟩
      obtain ⟨hnext, hD⟩ := hstep s i hs hi hC
      obtain ⟨halways, hthroughout⟩ := (ih hnext hrestE).mpr hrest
      exact ⟨⟨hI s hs, halways⟩, hD, hthroughout⟩

/-- **When a property holds all along and every step does its duty.** -/
theorem Always.and_throughout_iff (hI : ∀ s, I s → P s)
    (hstep : ∀ s i, I s → C s i → I (step s i) ∧ D s i)
    (hback : ∀ s i, I s → P (step s i) → D s i → C s i) (hs : I s) :
    Always step P s inputs ∧ Throughout step D s inputs ↔ Throughout step C s inputs :=
  Always.and_throughout_iff_of (E := fun _ _ => True) hI (fun s i hs _ => hstep s i hs)
    (fun s i hs _ => hback s i hs) hs (Throughout.of_all s inputs fun _ _ => trivial)

end ExynosVendor.Run
