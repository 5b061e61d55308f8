import Mathlib.Logic.Relation

/-!
# Programs of atomic actions

A thread as a tree: each node is one atomic action on a state it shares
with other threads, and what comes next depends on the state the action
found. A server takes up such programs one after the other while its
environment acts between any two actions. `Program.wp` is the weakest
precondition under that environment, and `Server.invariant` what it is
for: a property of the states the server is idle in.
-/

namespace ExynosVendor

/-- **A program** over states `σ` whose actions may carry a label `ℓ`. -/
inductive Program (σ ℓ α : Type) where
  /-- Return a value. -/
  | pure : α → Program σ ℓ α
  /-- Act on the state, and go on with what the state was. -/
  | act : Option ℓ → (σ → σ) → (σ → Program σ ℓ α) → Program σ ℓ α

namespace Program

variable {σ ℓ α β : Type}

/-- Sequential composition. -/
def bind : Program σ ℓ α → (α → Program σ ℓ β) → Program σ ℓ β
  | pure a, next => next a
  | act l f k, next => act l f fun s => (k s).bind next

instance : Monad (Program σ ℓ) where
  pure := pure
  bind := bind

/-- An unlabelled action without a result. -/
def modify (f : σ → σ) : Program σ ℓ Unit :=
  act none f fun _ => pure ()

/-- An action with a result. -/
def modifyGet (l : Option ℓ) (f : σ → α × σ) : Program σ ℓ α :=
  act l (fun s => (f s).2) fun s => pure (f s).1

/-- A look at the state. -/
def read (f : σ → α) : Program σ ℓ α :=
  act none id fun s => pure (f s)

/-- A labelled point of the program. -/
def mark (l : ℓ) : Program σ ℓ Unit :=
  act (some l) id fun _ => pure ()

/-- A program under a condition. -/
def when (c : Prop) [Decidable c] (p : Program σ ℓ Unit) : Program σ ℓ Unit :=
  if c then p else pure ()

/-- A run that nothing interferes with. -/
def run : Program σ ℓ α → σ → α × σ
  | pure a, s => (a, s)
  | act _ f k, s => (k s).run (f s)

/-! ## Weakest preconditions -/

section Wp

variable (env : σ → σ → Prop) (G : ℓ → σ → Prop)

/-- An action is taken in the states its label allows. -/
def Allowed (l : Option ℓ) (s : σ) : Prop :=
  ∀ p, l = some p → G p s

/-- **The weakest precondition**: whatever the environment does in
between, the program ends in `Q` as long as it acts in allowed states. -/
def wp : Program σ ℓ α → (α → σ → Prop) → σ → Prop
  | pure a, Q, s => ∀ s', Relation.ReflTransGen env s s' → Q a s'
  | act l f k, Q, s =>
      ∀ s', Relation.ReflTransGen env s s' → Allowed G l s' → (k s').wp Q (f s')

/-- An undisturbed run acts in allowed states only. -/
def AllowedRun : Program σ ℓ α → σ → Prop
  | pure _, _ => True
  | act l f k, s => Allowed G l s ∧ (k s).AllowedRun (f s)

instance [∀ l s, Decidable (G l s)] (l : Option ℓ) (s : σ) : Decidable (Allowed G l s) :=
  match l with
  | none => isTrue fun _ h => nomatch h
  | some l => decidable_of_iff (G l s) ⟨fun h _ heq => Option.some.inj heq ▸ h, fun h => h l rfl⟩

instance [∀ l s, Decidable (G l s)] : (p : Program σ ℓ α) → (s : σ) →
    Decidable (p.AllowedRun G s)
  | pure _, _ => isTrue trivial
  | act l f k, s =>
      have := instDecidableAllowedRun (k s) (f s)
      inferInstanceAs (Decidable (Allowed G l s ∧ (k s).AllowedRun G (f s)))

/-- A property the environment keeps. -/
def Stable (P : σ → Prop) : Prop :=
  ∀ s s', env s s' → P s → P s'

variable {env G} {p : Program σ ℓ α} {Q Q' : α → σ → Prop} {s s' : σ}

theorem Stable.reaches {P : σ → Prop} (h : Stable env P)
    (hs : Relation.ReflTransGen env s s') (hP : P s) : P s' := by
  induction hs with
  | refl => exact hP
  | tail _ hstep ih => exact h _ _ hstep ih

theorem Stable.and {P P' : σ → Prop} (h : Stable env P) (h' : Stable env P') :
    Stable env fun s => P s ∧ P' s :=
  fun s s' hstep hP => ⟨h s s' hstep hP.1, h' s s' hstep hP.2⟩

theorem wp_stable (hs : Relation.ReflTransGen env s s') (h : p.wp env G Q s) :
    p.wp env G Q s' := by
  cases p with
  | pure a => exact fun t ht => h t (hs.trans ht)
  | act l f k => exact fun t ht hl => h t (hs.trans ht) hl

theorem wp_mono (h : p.wp env G Q s) (hQ : ∀ a s, Q a s → Q' a s) : p.wp env G Q' s := by
  induction p generalizing s with
  | pure a => exact fun t ht => hQ a t (h t ht)
  | act l f k ih => exact fun t ht hl => ih t (h t ht hl)

/-- **Sequential composition.** -/
theorem wp_bind {next : α → Program σ ℓ β} {Q : β → σ → Prop}
    (h : p.wp env G (fun a s => (next a).wp env G Q s) s) : (p.bind next).wp env G Q s := by
  induction p generalizing s with
  | pure a => exact h s Relation.ReflTransGen.refl
  | act l f k ih => exact fun t ht hl => ih t (h t ht hl)

end Wp

/-! ## Triples -/

section Triple

variable (env : σ → σ → Prop) (G : ℓ → σ → Prop)

/-- **A triple**: from states with the precondition, the program ends in
the postcondition, whatever the environment does in between. -/
def Triple (P : σ → Prop) (p : Program σ ℓ α) (Q : α → σ → Prop) : Prop :=
  ∀ s, P s → p.wp env G Q s

variable {env G} {P P' : σ → Prop}

variable {p : Program σ ℓ α} {Q : α → σ → Prop}

theorem Triple.weaken {Q' : α → σ → Prop} (h : Triple env G P p Q) (hP : ∀ s, P' s → P s)
    (hQ : ∀ a s, Q a s → Q' a s) : Triple env G P' p Q' :=
  fun s hs => wp_mono (h s (hP s hs)) hQ

theorem triple_true : Triple env G P p fun _ _ => True := by
  intro s hs
  clear hs
  induction p generalizing s with
  | pure a => exact fun _ _ => trivial
  | act l f k ih => exact fun t _ _ => ih t (f t)

theorem triple_pure {a : α} (hQ : Stable env (Q a)) (h : ∀ s, P s → Q a s) :
    Triple env G P (Pure.pure a : Program σ ℓ α) Q :=
  fun s hs _ ht => hQ.reaches ht (h s hs)

/-- **Sequential composition.** -/
theorem Triple.bind {next : α → Program σ ℓ β} {R : α → σ → Prop} {Q : β → σ → Prop}
    (h : Triple env G P p R) (hnext : ∀ a, Triple env G (R a) (next a) Q) :
    Triple env G P (p >>= next) Q :=
  fun s hs => wp_bind (wp_mono (h s hs) fun a t ht => hnext a t ht)

/-- **An action**: it is taken in a state with the precondition that its
label allows. -/
theorem triple_modifyGet {l : Option ℓ} {f : σ → α × σ} (hP : Stable env P)
    (hQ : ∀ a, Stable env (Q a)) (h : ∀ s, P s → Allowed G l s → Q (f s).1 (f s).2) :
    Triple env G P (modifyGet l f) Q :=
  fun _ hs t ht hl _ hu => (hQ _).reaches hu (h t (hP.reaches ht hs) hl)

theorem triple_modify {f : σ → σ} {Q : σ → Prop} (hP : Stable env P) (hQ : Stable env Q)
    (h : ∀ s, P s → Q (f s)) : Triple env G P (modify f) fun _ => Q :=
  fun _ hs t ht _ _ hu => hQ.reaches hu (h t (hP.reaches ht hs))

theorem triple_read {f : σ → α} (hP : Stable env P) (hQ : ∀ a, Stable env (Q a))
    (h : ∀ s, P s → Q (f s) s) : Triple env G P (read f) Q :=
  fun _ hs t ht _ _ hu => (hQ _).reaches hu (h t (hP.reaches ht hs))

theorem triple_mark {l : ℓ} {Q : σ → Prop} (hP : Stable env P) (hQ : Stable env Q)
    (h : ∀ s, P s → G l s → Q s) : Triple env G P (mark l) fun _ => Q :=
  fun _ hs t ht hl _ hu => hQ.reaches hu (h t (hP.reaches ht hs) (hl l rfl))

theorem triple_when {c : Prop} [Decidable c] {p : Program σ ℓ Unit} {Q : Unit → σ → Prop}
    (hQ : Stable env (Q ())) (hp : c → Triple env G P p Q) (h : ¬ c → ∀ s, P s → Q () s) :
    Triple env G P (when c p) Q := by
  unfold when
  by_cases hc : c
  · rw [if_pos hc]
    exact hp hc
  · rw [if_neg hc]
    exact triple_pure hQ (h hc)

end Triple

end Program

/-! ## Servers -/

/-- **A server**: what its environment does, and which program it takes
up in an idle state, and in which state that leaves it. -/
structure Server (σ ℓ : Type) where
  /-- A step of the environment. -/
  env : σ → σ → Prop
  /-- The server takes up a program. -/
  serve : σ → σ → Program σ ℓ Unit → Prop

namespace Server

variable {σ ℓ : Type} (S : Server σ ℓ) (G : ℓ → σ → Prop)

/-- A step of the server or its environment, where labelled actions are
taken in allowed states only. The second component is the rest of the
program in progress. -/
inductive Step : σ × Option (Program σ ℓ Unit) → σ × Option (Program σ ℓ Unit) → Prop
  /-- The environment acts. -/
  | env {s s' : σ} {t : Option (Program σ ℓ Unit)} : S.env s s' → Step (s, t) (s', t)
  /-- The server takes up a program. -/
  | serve {s s' : σ} {p : Program σ ℓ Unit} : S.serve s s' p → Step (s, none) (s', some p)
  /-- The server acts. -/
  | act {s : σ} {l : Option ℓ} {f : σ → σ} {k : σ → Program σ ℓ Unit} :
      Program.Allowed G l s → Step (s, some (.act l f k)) (f s, some (k s))
  /-- The program is done. -/
  | done {s : σ} : Step (s, some (.pure ())) (s, none)

/-- A run of the server. -/
def Reaches : σ × Option (Program σ ℓ Unit) → σ × Option (Program σ ℓ Unit) → Prop :=
  Relation.ReflTransGen (S.Step G)

/-- No label is restricted. -/
def unrestricted : ℓ → σ → Prop :=
  fun _ _ => True

instance (l : ℓ) (s : σ) : Decidable (unrestricted l s) :=
  isTrue trivial

variable {S G} {Q : σ → Prop}

/-- A server on the way to an idle state with the property `Q`. -/
def Holds (S : Server σ ℓ) (G : ℓ → σ → Prop) (Q : σ → Prop) :
    σ × Option (Program σ ℓ Unit) → Prop
  | (s, none) => Q s
  | (s, some p) => p.wp S.env G (fun _ => Q) s

/-- One step keeps what every program establishes. -/
theorem Step.holds (hstable : Program.Stable S.env Q)
    (hserve : ∀ s s' p, S.serve s s' p → Q s → p.wp S.env G (fun _ => Q) s')
    {c c' : σ × Option (Program σ ℓ Unit)} (hstep : S.Step G c c') (h : Holds S G Q c) :
    Holds S G Q c' := by
  cases hstep with
  | @env s s' t henv =>
      cases t with
      | none => exact hstable s s' henv h
      | some p => exact Program.wp_stable (Relation.ReflTransGen.single henv) h
  | serve hs => exact hserve _ _ _ hs h
  | act hallowed => exact h _ Relation.ReflTransGen.refl hallowed
  | done => exact h _ Relation.ReflTransGen.refl

/-- **The invariant rule**: what the environment keeps and every program
establishes again holds whenever the server is idle. -/
theorem invariant (hstable : Program.Stable S.env Q)
    (hserve : ∀ s s' p, S.serve s s' p → Q s → p.wp S.env G (fun _ => Q) s')
    {s s' : σ} (hreach : S.Reaches G (s, none) (s', none)) (h : Q s) : Q s' := by
  have hholds : ∀ c, S.Reaches G (s, none) c → Holds S G Q c := by
    intro c hc
    induction hc with
    | refl => exact h
    | tail _ hstep ih => exact hstep.holds hstable hserve ih
  exact hholds _ hreach

theorem reaches_run {c : σ × Option (Program σ ℓ Unit)} {s : σ} {p : Program σ ℓ Unit}
    (h : S.Reaches G c (s, some p)) (hallowed : p.AllowedRun G s) :
    S.Reaches G c ((p.run s).2, none) := by
  induction p generalizing s with
  | pure a => exact h.tail Step.done
  | act l f k ih => exact ih s (h.tail (Step.act hallowed.1)) hallowed.2

end Server

end ExynosVendor
