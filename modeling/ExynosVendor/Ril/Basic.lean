import ExynosVendor.Common.Block
import Mathlib.Data.BitVec

/-!
# The RIL's base types

The machine types of `base/types.h` at their own widths, the
little-endian reading that `memcpy` into a wider integer amounts to on
the vendor's targets, and what the platform rather than the program
decides: the allocator, and what memory nobody has written holds.
-/

namespace ExynosVendor.Ril

/-- `unsigned char`. -/
abbrev BYTE := BitVec 8

/-- `unsigned short`. -/
abbrev WORD := BitVec 16

/-- `unsigned int`. -/
abbrev UINT := BitVec 32

/-- `int`, by its bits. -/
abbrev INT := BitVec 32

/-- A `char` as the `int` it is promoted to: whether it has a sign is the
platform's choice. -/
def charInt (signedChar : Bool) (b : BYTE) : INT :=
  if signedChar then b.signExtend 32 else b.setWidth 32

/-- A `short` filled by `memcpy` from two bytes. -/
def shortOfBytes (b0 b1 : BYTE) : ℤ :=
  (b1 ++ b0 : BitVec 16).toInt

/-- An `int` filled by `memcpy` from four bytes. -/
def intOfBytes (b0 b1 b2 b3 : BYTE) : ℤ :=
  (b3 ++ b2 ++ b1 ++ b0 : BitVec 32).toInt

/-- `strncpy`'s bytes: the source up to its terminator, padded with
terminators. A source that ends first is read past its end. -/
def strncpy : ℕ → List BYTE → Option (List BYTE)
  | 0, _ => some []
  | _ + 1, [] => none
  | n + 1, c :: rest =>
      if c = 0 then some (List.replicate (n + 1) 0) else (strncpy n rest).map (c :: ·)

/-- **The platform** a function of the library runs on. -/
structure Platform where
  /-- The allocator behind `new`. -/
  heap : Allocator
  /-- The byte at an offset of a heap block nobody has written. -/
  heapByte : ℕ → BYTE
  /-- The unwritten top byte of a stack integer, in a call on so many
  bytes of input. -/
  stackByte : ℕ → BYTE

namespace Platform

/-- `new BYTE[n]`. -/
def newBytes (P : Platform) (n : ℕ) : List BYTE :=
  P.heap.alloc P.heapByte n

/-- `new char[n]`. -/
def newChars (P : Platform) (n : ℕ) : List Char :=
  P.heap.alloc (fun i => Char.ofNat (P.heapByte i).toNat) n

@[simp] theorem newBytes_length (P : Platform) (n : ℕ) :
    (P.newBytes n).length = P.heap.usable n := by
  simp [newBytes]

@[simp] theorem newChars_length (P : Platform) (n : ℕ) :
    (P.newChars n).length = P.heap.usable n := by
  simp [newChars]

/-- The platform on which an allocation is exactly as large as asked
for, so every access outside it counts. -/
def strict (heapByte stackByte : ℕ → BYTE) : Platform where
  heap := Allocator.exact
  heapByte := heapByte
  stackByte := stackByte

@[simp] theorem strict_heap (heapByte stackByte : ℕ → BYTE) :
    (strict heapByte stackByte).heap = Allocator.exact := rfl

end Platform

end ExynosVendor.Ril
