import Mathlib.Data.Nat.Notation
import Mathlib.Tactic.Common

/-!
# Checked loops

A loop over a list whose rounds either go on, stop the loop with an error, or
fault. What becomes of the loop is what the first round does that does not go on,
and where the rounds can be told beforehand, so can the loop.
-/

namespace ExynosVendor

/-- What one round of a loop does. -/
inductive Round where
  | go
  | stop
  | fault
  deriving DecidableEq

namespace Round

/-- What a loop does, from what its rounds would do. -/
def loop : List Round → Round
  | [] => .go
  | .go :: rounds => loop rounds
  | .stop :: _ => .stop
  | .fault :: _ => .fault

@[simp] theorem loop_nil : loop [] = .go := rfl

@[simp] theorem loop_go (rounds : List Round) : loop (.go :: rounds) = loop rounds := rfl

@[simp] theorem loop_stop (rounds : List Round) : loop (.stop :: rounds) = .stop := rfl

@[simp] theorem loop_fault (rounds : List Round) : loop (.fault :: rounds) = .fault := rfl

end Round

end ExynosVendor
