import ExynosVendor.Common.Program
import Mathlib.Data.Nat.Notation
import Mathlib.Tactic.Common

/-!
# Lock discipline

A lock that is not recursive, and a thread that takes and releases it: some
labels of its program are operations on the lock. The thread is disciplined
when it never takes the lock while it has it, releases it only then, and ends
without it. What the other threads do in between is any state an action may
find.

A condition on the other labels, which may ask whether the thread has the
lock, is exact for a program when the program is disciplined in just the runs
that meet it. `Exact` is for programs that start without the lock, `Inside`
for those that run under it, and `exact_locked` leads from the one to the
other.
-/

namespace ExynosVendor

/-- An operation on the lock. -/
inductive LockOp where
  | lock
  | unlock
  deriving DecidableEq

namespace Program

variable {σ ℓ α β : Type}

/-- **The labels of a run**, each with the state its action finds, when the
actions find these states one after the other. -/
def trace : Program σ ℓ α → (ℕ → σ) → List (ℓ × σ)
  | pure _, _ => []
  | act l _ k, found => l.toList.map (·, found 0) ++ (k (found 0)).trace fun n => found (n + 1)

/-- What the run returns. -/
def returned : Program σ ℓ α → (ℕ → σ) → α
  | pure a, _ => a
  | act _ _ k, found => (k (found 0)).returned fun n => found (n + 1)

/-- The states behind those it finds. -/
def behind : Program σ ℓ α → (ℕ → σ) → ℕ → σ
  | pure _, found => found
  | act _ _ k, found => (k (found 0)).behind fun n => found (n + 1)

theorem trace_bind (p : Program σ ℓ α) (next : α → Program σ ℓ β) (found : ℕ → σ) :
    (p.bind next).trace found =
      p.trace found ++ (next (p.returned found)).trace (p.behind found) := by
  induction p generalizing found with
  | pure a => rfl
  | act l f k ih =>
    show l.toList.map (·, found 0) ++ ((k (found 0)).bind next).trace (fun n => found (n + 1)) =
      (l.toList.map (·, found 0) ++ (k (found 0)).trace fun n => found (n + 1)) ++ _
    rw [ih, List.append_assoc]
    rfl

end Program

/-- **A lock discipline**: which labels are operations on the lock, and a
condition on the others, for a thread that has the lock or has not. -/
structure LockDiscipline (σ ℓ : Type) where
  op : ℓ → Option LockOp
  condition : Bool → ℓ → σ → Prop

namespace LockDiscipline

variable {σ ℓ α β : Type} (D : LockDiscipline σ ℓ)

/-- Whether the thread has the lock behind an action; `none` is a thread that
takes a lock it has, or releases one it has not. -/
def after : Option LockOp → Bool → Option Bool
  | none, held => some held
  | some .lock, false => some true
  | some .unlock, true => some false
  | some _, _ => none

/-- Whether it has the lock at the end of a run. -/
def run : Bool → List (ℓ × σ) → Option Bool
  | held, [] => some held
  | held, e :: rest => (after (D.op e.1) held).bind (run · rest)

/-- **The run is disciplined.** -/
def Disciplined (t : List (ℓ × σ)) : Prop := D.run false t = some false

/-- Whether a thread that goes wrong counts as one that has the lock. -/
def holds : Option LockOp → Bool → Bool
  | none, held => held
  | some .lock, _ => true
  | some .unlock, _ => false

/-- **The run meets the condition.** -/
def Sound : Bool → List (ℓ × σ) → Prop
  | _, [] => True
  | held, e :: rest =>
      (D.op e.1 = none → D.condition held e.1 e.2) ∧ Sound (holds (D.op e.1) held) rest

variable {D} {held held' : Bool} {t t' : List (ℓ × σ)} {p : Program σ ℓ α}
  {next : α → Program σ ℓ β}

theorem holds_of_after {o : Option LockOp} (h : after o held = some held') :
    holds o held = held' := by
  cases o with
  | none => exact Option.some.inj h
  | some o =>
    cases o with
    | lock =>
      cases held with
      | false => exact Option.some.inj h
      | true => exact absurd h (by simp [after])
    | unlock =>
      cases held with
      | false => exact absurd h (by simp [after])
      | true => exact Option.some.inj h

theorem run_append : D.run held (t ++ t') = (D.run held t).bind (D.run · t') := by
  induction t generalizing held with
  | nil => rfl
  | cons e t ih =>
    rw [List.cons_append, run, run]
    cases after (D.op e.1) held with
    | none => rfl
    | some held' => exact ih

/-- **A run in two parts**, the first of which leaves the lock one way or the
other. -/
theorem sound_append (h : D.run held t = some held') :
    D.Sound held (t ++ t') ↔ D.Sound held t ∧ D.Sound held' t' := by
  induction t generalizing held with
  | nil =>
    obtain rfl := Option.some.inj h
    exact ⟨fun hs => ⟨trivial, hs⟩, fun hs => hs.2⟩
  | cons e t ih =>
    obtain ⟨held'', hafter, hrest⟩ := Option.bind_eq_some_iff.mp h
    show (_ ∧ D.Sound (holds (D.op e.1) held) (t ++ t')) ↔
      (_ ∧ D.Sound (holds (D.op e.1) held) t) ∧ D.Sound held' t'
    rw [holds_of_after hafter, ih hrest, and_assoc]

theorem Sound.left (h : D.Sound held (t ++ t')) : D.Sound held t := by
  induction t generalizing held with
  | nil => trivial
  | cons e t ih => exact ⟨h.1, ih h.2⟩

variable (D)

/-- **The condition is exact** for a program that starts without the lock. A
thread that still has the lock does not get rid of it by the program. -/
structure Exact (p : Program σ ℓ α) : Prop where
  disciplined : ∀ found, D.Disciplined (p.trace found) ↔ D.Sound false (p.trace found)
  held : ∀ found, D.run true (p.trace found) ≠ some false

/-- **And for one that runs under the lock**: it keeps the lock, or takes it
once more. -/
structure Inside (p : Program σ ℓ α) : Prop where
  kept : ∀ found, D.Sound true (p.trace found) → D.run true (p.trace found) = some true
  taken : ∀ found, ¬ D.Sound true (p.trace found) → D.run true (p.trace found) = none

variable {D}

theorem exact_pure (a : α) : D.Exact (Pure.pure a : Program σ ℓ α) where
  disciplined _ := ⟨fun _ => trivial, fun _ => rfl⟩
  held _ h := absurd (Option.some.inj h) (by decide)

theorem inside_pure (a : α) : D.Inside (Pure.pure a : Program σ ℓ α) where
  kept _ _ := rfl
  taken _ h := absurd trivial h

/-- **One program after another.** -/
theorem Exact.bind (h : D.Exact p) (hnext : ∀ a, D.Exact (next a)) : D.Exact (p >>= next) := by
  constructor
  · intro found
    show D.Disciplined ((p.bind next).trace found) ↔ D.Sound false ((p.bind next).trace found)
    have hrest := hnext (p.returned found)
    rw [Program.trace_bind]
    unfold Disciplined
    rw [run_append]
    by_cases hsound : D.Sound false (p.trace found)
    · have hdone : D.run false (p.trace found) = some false := (h.disciplined found).mpr hsound
      rw [hdone, sound_append hdone]
      exact ⟨fun hrun => ⟨hsound, (hrest.disciplined _).mp hrun⟩,
        fun hs => (hrest.disciplined _).mpr hs.2⟩
    · have hbad : D.run false (p.trace found) ≠ some false :=
        fun hdone => hsound ((h.disciplined found).mp hdone)
      refine ⟨fun hrun => ?_, fun hs => absurd hs.left hsound⟩
      obtain ⟨held, hheld, hrun⟩ := Option.bind_eq_some_iff.mp hrun
      cases held with
      | false => exact absurd hheld hbad
      | true => exact absurd hrun (hrest.held _)
  · intro found hrun
    have hrun : D.run true ((p.bind next).trace found) = some false := hrun
    rw [Program.trace_bind, run_append] at hrun
    obtain ⟨held, hheld, hrun⟩ := Option.bind_eq_some_iff.mp hrun
    cases held with
    | false => exact h.held found hheld
    | true => exact (hnext _).held _ hrun

theorem Inside.bind (h : D.Inside p) (hnext : ∀ a, D.Inside (next a)) : D.Inside (p >>= next) := by
  constructor
  · intro found hs
    have hs : D.Sound true ((p.bind next).trace found) := hs
    show D.run true ((p.bind next).trace found) = some true
    rw [Program.trace_bind] at hs ⊢
    have hkept := h.kept found hs.left
    rw [run_append, hkept]
    exact (hnext _).kept _ ((sound_append hkept).mp hs).2
  · intro found hs
    have hs : ¬ D.Sound true ((p.bind next).trace found) := hs
    show D.run true ((p.bind next).trace found) = none
    rw [Program.trace_bind] at hs ⊢
    rw [run_append]
    by_cases hfirst : D.Sound true (p.trace found)
    · have hkept := h.kept found hfirst
      rw [hkept]
      exact (hnext _).taken _ fun hsecond => hs ((sound_append hkept).mpr ⟨hfirst, hsecond⟩)
    · rw [h.taken found hfirst]
      rfl

variable (D)

/-- **And for one that has the lock and gives it back**: it gives it back in
just the runs that meet the condition. -/
def Closing (p : Program σ ℓ α) : Prop :=
  ∀ found, D.run true (p.trace found) = some false ↔ D.Sound true (p.trace found)

variable {D}

/-- What runs under the lock in front of the release. -/
theorem Inside.closing (h : D.Inside p) (hnext : ∀ a, D.Closing (next a)) :
    D.Closing (p >>= next) := by
  intro found
  show D.run true ((p.bind next).trace found) = some false ↔ D.Sound true ((p.bind next).trace found)
  rw [Program.trace_bind, run_append]
  by_cases hsound : D.Sound true (p.trace found)
  · have hkept := h.kept found hsound
    rw [hkept, sound_append hkept]
    exact ⟨fun hrun => ⟨hsound, (hnext _ _).mp hrun⟩, fun hs => (hnext _ _).mpr hs.2⟩
  · rw [h.taken found hsound]
    exact ⟨fun hrun => absurd hrun nofun, fun hs => absurd hs.left hsound⟩

/-- And what runs without it behind. -/
theorem Closing.bind (h : D.Closing p) (hnext : ∀ a, D.Exact (next a)) :
    D.Closing (p >>= next) := by
  intro found
  show D.run true ((p.bind next).trace found) = some false ↔ D.Sound true ((p.bind next).trace found)
  rw [Program.trace_bind, run_append]
  by_cases hsound : D.Sound true (p.trace found)
  · have hdone := (h found).mpr hsound
    rw [hdone, sound_append hdone]
    exact ⟨fun hrun => ⟨hsound, ((hnext _).disciplined _).mp hrun⟩,
      fun hs => ((hnext _).disciplined _).mpr hs.2⟩
  · refine ⟨fun hrun => ?_, fun hs => absurd hs.left hsound⟩
    obtain ⟨held, hheld, hrun⟩ := Option.bind_eq_some_iff.mp hrun
    cases held with
    | false => exact absurd ((h found).mp hheld) hsound
    | true => exact absurd hrun ((hnext _).held _)

/-- **A section under the lock.** -/
theorem Closing.exact {lock : ℓ} (hlock : D.op lock = some .lock) (h : D.Closing p) :
    D.Exact (Program.mark lock >>= fun _ => p) where
  disciplined found := by
    show (after (D.op lock) false).bind (D.run · (p.trace _)) = some false ↔
      (_ ∧ D.Sound (holds (D.op lock) false) (p.trace _))
    rw [hlock]
    exact (h _).trans ⟨fun hs => ⟨fun hnone => absurd hnone (by simp), hs⟩, fun hs => hs.2⟩
  held found := by
    show (after (D.op lock) true).bind (D.run · (p.trace _)) ≠ some false
    rw [hlock]
    exact nofun

/-- Who takes the lock once more is stuck. -/
theorem run_lock {lock : ℓ} (hlock : D.op lock = some .lock) (found : ℕ → σ) :
    D.run true ((Program.mark lock >>= fun _ => p).trace found) = none := by
  show (after (D.op lock) true).bind (D.run · (p.trace _)) = none
  rw [hlock]
  rfl

theorem closing_unlock {unlock : ℓ} (hunlock : D.op unlock = some .unlock) :
    D.Closing (Program.mark unlock) := by
  intro found
  show (after (D.op unlock) true).bind (D.run · []) = some false ↔ (_ ∧ True)
  rw [hunlock]
  exact ⟨fun _ => ⟨fun hnone => absurd hnone (by simp), trivial⟩, fun _ => rfl⟩

theorem closing_fault {l : ℓ} (hop : D.op l = none) (hcond : ∀ s, ¬ D.condition true l s) :
    D.Closing (Program.mark l) := by
  intro found
  show (after (D.op l) true).bind (D.run · []) = some false ↔ ((_ → D.condition true l _) ∧ True)
  rw [hop]
  exact ⟨fun hrun => absurd (Option.some.inj hrun) (by decide),
    fun hs => absurd (hs.1 rfl) (hcond _)⟩

/-! ## Actions -/

theorem exact_modifyGet (f : σ → α × σ) : D.Exact (Program.modifyGet none f) where
  disciplined _ := ⟨fun _ => trivial, fun _ => rfl⟩
  held _ h := absurd (Option.some.inj h) (by decide)

theorem inside_modifyGet (f : σ → α × σ) : D.Inside (Program.modifyGet none f) where
  kept _ _ := rfl
  taken _ h := absurd trivial h

section Test

variable {l : ℓ} {f : σ → α × σ} {next : α → Program σ ℓ β}

/-- **A test under the lock**, behind which the program may end without a
release. -/
theorem closing_test (hop : D.op l = none)
    (h : ∀ s, D.condition true l s → D.Closing (next (f s).1))
    (hbad : ∀ s, ¬ D.condition true l s → ∃ b, next (f s).1 = Pure.pure b) :
    D.Closing (Program.modifyGet (some l) f >>= next) := by
  intro found
  show (after (D.op l) true).bind (D.run · ((next (f (found 0)).1).trace _)) = some false ↔
    ((D.op l = none → D.condition true l (found 0)) ∧
      D.Sound (holds (D.op l) true) ((next (f (found 0)).1).trace _))
  rw [hop]
  by_cases hcond : D.condition true l (found 0)
  · exact (h _ hcond _).trans ⟨fun hs => ⟨fun _ => hcond, hs⟩, fun hs => hs.2⟩
  · obtain ⟨b, hb⟩ := hbad _ hcond
    rw [hb]
    exact ⟨fun hrun => absurd (Option.some.inj hrun) (by decide), fun hs => absurd (hs.1 rfl) hcond⟩

/-- **And one that may lead to the lock**: without it the test may come out
either way. -/
theorem exact_test (hop : D.op l = none) (hcond : ∀ s, D.condition false l s)
    (h : ∀ a, D.Exact (next a)) : D.Exact (Program.modifyGet (some l) f >>= next) where
  disciplined found := by
    show (after (D.op l) false).bind (D.run · ((next (f (found 0)).1).trace _)) = some false ↔
      ((D.op l = none → D.condition false l (found 0)) ∧
        D.Sound (holds (D.op l) false) ((next (f (found 0)).1).trace _))
    rw [hop]
    exact ((h _).disciplined _).trans ⟨fun hs => ⟨fun _ => hcond _, hs⟩, fun hs => hs.2⟩
  held found := by
    show (after (D.op l) true).bind (D.run · ((next (f (found 0)).1).trace _)) ≠ some false
    rw [hop]
    exact (h _).held _

theorem inside_test (hop : D.op l = none)
    (h : ∀ s, D.condition true l s → D.Inside (next (f s).1))
    (hbad : ∀ s, ¬ D.condition true l s → ∀ found, D.run true ((next (f s).1).trace found) = none) :
    D.Inside (Program.modifyGet (some l) f >>= next) := by
  have hrun (found : ℕ → σ) :
      D.run true ((Program.modifyGet (some l) f >>= next).trace found) =
        D.run true ((next (f (found 0)).1).trace fun n => found (n + 1)) := by
    show (after (D.op l) true).bind (D.run · ((next (f (found 0)).1).trace _)) = _
    rw [hop]
    rfl
  have hsound (found : ℕ → σ) :
      D.Sound true ((Program.modifyGet (some l) f >>= next).trace found) ↔
        D.condition true l (found 0) ∧
          D.Sound true ((next (f (found 0)).1).trace fun n => found (n + 1)) := by
    show ((D.op l = none → D.condition true l (found 0)) ∧
        D.Sound (holds (D.op l) true) ((next (f (found 0)).1).trace _)) ↔ _
    rw [hop]
    exact ⟨fun hs => ⟨hs.1 rfl, hs.2⟩, fun hs => ⟨fun _ => hs.1, hs.2⟩⟩
  constructor
  · intro found hs
    obtain ⟨hcond, hs⟩ := (hsound found).mp hs
    rw [hrun]
    exact (h _ hcond).kept _ hs
  · intro found hs
    rw [hrun]
    by_cases hcond : D.condition true l (found 0)
    · exact (h _ hcond).taken _ fun hrest => hs ((hsound found).mpr ⟨hcond, hrest⟩)
    · exact hbad _ hcond _

end Test

/-- **The lock given back for a while** and taken again. -/
theorem inside_released {lock unlock : ℓ} {q : Program σ ℓ β} (hlock : D.op lock = some .lock)
    (hunlock : D.op unlock = some .unlock) (hq : ∀ found, q.trace found = []) :
    D.Inside (Program.mark unlock >>= fun _ => q >>= fun _ => Program.mark lock) := by
  have htrace (found : ℕ → σ) :
      ∃ s s', (Program.mark unlock >>= fun _ => q >>= fun _ => Program.mark lock).trace found =
        [(unlock, s), (lock, s')] := by
    refine ⟨found 0, q.behind (fun n => found (n + 1)) 0, ?_⟩
    show (unlock, found 0) :: (q.bind fun _ => Program.mark lock).trace _ = _
    rw [Program.trace_bind, hq]
    rfl
  constructor
  · intro found _
    obtain ⟨s, s', htrace⟩ := htrace found
    rw [htrace]
    simp [run, after, hlock, hunlock]
  · intro found hs
    obtain ⟨s, s', htrace⟩ := htrace found
    rw [htrace] at hs
    exact absurd (by simp [Sound, hlock, hunlock]) hs

end LockDiscipline

end ExynosVendor
