import ExynosVendor.Common.PrefixCode
import Mathlib.Tactic.IntervalCases

/-!
# UTF-8 sequences

A lead byte announces how many continuation bytes follow it. A byte
string is `Complete` when each lead byte is followed by all of them:
nothing was cut off in the middle of a sequence. The encoding of a
16-bit code unit is complete, and complete strings are closed under
concatenation, so what is put together from whole sequences is complete
whatever its length.

The first byte also tells a sequence from what follows it, so the units
are the words of a prefix code (`code`).
-/

namespace ExynosVendor.Utf8

/-- A continuation byte, `10xxxxxx`. -/
def IsContinuation (b : BitVec 8) : Bool :=
  b[7] && !b[6]

/-- The continuation bytes a byte announces. -/
def announced (b : BitVec 8) : ℕ :=
  if b[7] && b[6] then
    if !b[5] then 1 else if !b[4] then 2 else if !b[3] then 3 else 0
  else 0

/-- **No sequence is cut off**: every lead byte is followed by the
continuation bytes it announces. -/
def Complete : List (BitVec 8) → Prop
  | [] => True
  | b :: rest =>
      (announced b ≤ rest.length ∧ ∀ c ∈ rest.take (announced b), IsContinuation c) ∧
        Complete rest

/-- The encoding of a 16-bit code unit. -/
def unit (u : BitVec 16) : List (BitVec 8) :=
  if u ≤ 0x7F then [u.truncate 8]
  else if u ≤ 0x7FF then [(0xC0 ||| (u >>> 6)).truncate 8, (0x80 ||| (u &&& 0x3F)).truncate 8]
  else
    [(0xE0 ||| (u >>> 12)).truncate 8, (0x80 ||| ((u >>> 6) &&& 0x3F)).truncate 8,
      (0x80 ||| (u &&& 0x3F)).truncate 8]

/-- Whole sequences put together are whole sequences. -/
theorem Complete.append {xs ys : List (BitVec 8)} (hx : Complete xs) (hy : Complete ys) :
    Complete (xs ++ ys) := by
  induction xs with
  | nil => exact hy
  | cons b rest ih =>
      obtain ⟨⟨hlen, hall⟩, hrest⟩ := hx
      rw [List.cons_append, Complete]
      refine ⟨⟨?_, ?_⟩, ih hrest⟩
      · rw [List.length_append]
        omega
      · -- the announced bytes lie inside the first part
        have htake : (rest ++ ys).take (announced b) = rest.take (announced b) :=
          List.take_append_of_le_length hlen
        rw [htake]
        exact hall

/-- A byte that announces nothing may stand anywhere. -/
theorem complete_cons_of_announced_eq_zero {b : BitVec 8} {rest : List (BitVec 8)}
    (h : announced b = 0) : Complete (b :: rest) ↔ Complete rest := by
  simp [Complete, h]

theorem complete_of_announced_eq_zero {xs : List (BitVec 8)} (h : ∀ b ∈ xs, announced b = 0) :
    Complete xs := by
  induction xs with
  | nil => trivial
  | cons b rest ih =>
      rw [complete_cons_of_announced_eq_zero (h b List.mem_cons_self)]
      exact ih fun c hc => h c (List.mem_cons_of_mem _ hc)

theorem announced_of_isContinuation {b : BitVec 8} (h : IsContinuation b) : announced b = 0 := by
  simp only [IsContinuation, Bool.and_eq_true, Bool.not_eq_true'] at h
  simp [announced, h.2]

/-- The last byte of a long encoding, and the middle one, is a
continuation byte. -/
theorem isContinuation_six_bits (u : BitVec 16) :
    IsContinuation ((0x80 ||| (u &&& 0x3F)).truncate 8) := by
  simp [IsContinuation]

theorem complete_two {a b : BitVec 8} (ha : announced a = 1) (hb : IsContinuation b) :
    Complete [a, b] := by
  refine ⟨⟨?_, ?_⟩, (complete_cons_of_announced_eq_zero (announced_of_isContinuation hb)).mpr trivial⟩
  · simp [ha]
  · simp [ha, hb]

theorem complete_three {a b c : BitVec 8} (ha : announced a = 2) (hb : IsContinuation b)
    (hc : IsContinuation c) : Complete [a, b, c] := by
  have hrest : Complete [b, c] := by
    rw [complete_cons_of_announced_eq_zero (announced_of_isContinuation hb),
      complete_cons_of_announced_eq_zero (announced_of_isContinuation hc)]
    trivial
  refine ⟨⟨?_, ?_⟩, hrest⟩
  · simp [ha]
  · simp [ha, hb, hc]

theorem bit_eq_false {u : BitVec 16} {i : ℕ} (hi : i < 16) (h : u.toNat < 2 ^ i) :
    u[i] = false := by
  rw [BitVec.getElem_eq_testBit_toNat]
  exact Nat.testBit_lt_two_pow h

/-- **The encoding of a code unit is one whole sequence.** -/
theorem complete_unit (u : BitVec 16) : Complete (unit u) := by
  have hlast := isContinuation_six_bits u
  have hmiddle := isContinuation_six_bits (u >>> 6)
  rw [unit]
  split
  · next hsmall =>
    have hbit : u[7] = false := bit_eq_false (by decide) (Nat.lt_succ_of_le hsmall)
    have hlead : announced (u.truncate 8) = 0 := by
      simp [announced, hbit]
    exact (complete_cons_of_announced_eq_zero hlead).mpr trivial
  · split
    · next hsmall =>
      have hbit : u[11] = false := bit_eq_false (by decide) (Nat.lt_succ_of_le hsmall)
      have hlead : announced ((0xC0 ||| (u >>> 6)).truncate 8) = 1 := by
        simp [announced, hbit]
      exact complete_two hlead hlast
    · have hlead : announced ((0xE0 ||| (u >>> 12)).truncate 8) = 2 := by
        simp [announced]
      exact complete_three hlead hmiddle hlast

/-! ## The code -/

/-- The unit of a sequence. -/
def value : List (BitVec 8) → BitVec 16
  | [a] => a.setWidth 16
  | [a, b] => (a &&& 0x1F#8).setWidth 16 <<< 6 ||| (b &&& 0x3F#8).setWidth 16
  | [a, b, c] =>
      (a &&& 0x0F#8).setWidth 16 <<< 12 ||| (b &&& 0x3F#8).setWidth 16 <<< 6 |||
        (c &&& 0x3F#8).setWidth 16
  | _ => 0

/-- The bits a continuation byte carries. -/
theorem payload_continuation (u : BitVec 16) :
    (((0x80 ||| (u &&& 0x3F)).truncate 8 : BitVec 8) &&& 0x3F#8).setWidth 16 = u &&& 0x3F := by
  ext i hi
  interval_cases i <;> simp

/-- Those of the lead of three bytes. -/
theorem payload_lead_three (u : BitVec 16) :
    (((0xE0 ||| (u >>> 12)).truncate 8 : BitVec 8) &&& 0x0F#8).setWidth 16 = u >>> 12 := by
  ext i hi
  interval_cases i <;> simp

theorem payload_lead_two {u : BitVec 16} (h : u.toNat < 2 ^ 11) :
    (((0xC0 ||| (u >>> 6)).truncate 8 : BitVec 8) &&& 0x1F#8).setWidth 16 = u >>> 6 := by
  have h11 : u[11] = false := bit_eq_false (by decide) h
  have h12 : u[12] = false := bit_eq_false (by decide) (by omega)
  have h13 : u[13] = false := bit_eq_false (by decide) (by omega)
  have h14 : u[14] = false := bit_eq_false (by decide) (by omega)
  have h15 : u[15] = false := bit_eq_false (by decide) (by omega)
  ext i hi
  interval_cases i <;> simp [h11, h12, h13, h14, h15]

/-- A sequence determines its unit. -/
theorem value_unit (u : BitVec 16) : value (unit u) = u := by
  rw [unit]
  split
  · next hsmall =>
    -- the upper byte is clear
    have hle : u.toNat ≤ 0x7F := hsmall
    apply BitVec.eq_of_toNat_eq
    simp only [value, BitVec.toNat_setWidth]
    omega
  · split
    · next hsmall =>
      rw [value, payload_lead_two (Nat.lt_succ_of_le hsmall), payload_continuation]
      ext i hi
      interval_cases i <;> simp
    · rw [value, payload_lead_three, payload_continuation, Nat.cast_ofNat, payload_continuation]
      ext i hi
      interval_cases i <;> simp

/-- The first byte announces the others. -/
theorem announced_unit (u : BitVec 16) :
    ∃ b rest, unit u = b :: rest ∧ announced b = rest.length := by
  rw [unit]
  split
  · next hsmall =>
    have hbit : u[7] = false := bit_eq_false (by decide) (Nat.lt_succ_of_le hsmall)
    exact ⟨_, _, rfl, by simp [announced, hbit]⟩
  · split
    · next hsmall =>
      have hbit : u[11] = false := bit_eq_false (by decide) (Nat.lt_succ_of_le hsmall)
      exact ⟨_, _, rfl, by simp [announced, hbit]⟩
    · exact ⟨_, _, rfl, by simp [announced]⟩

/-- **Sequences are told from what follows them.** -/
def code : PrefixCode (BitVec 16) (BitVec 8) where
  encode := unit
  encode_ne_nil u := by
    obtain ⟨b, rest, hunit, -⟩ := announced_unit u
    rw [hunit]
    exact List.cons_ne_nil b rest
  encode_append_inj {u v r s} h := by
    obtain ⟨b, rest, hu, hb⟩ := announced_unit u
    obtain ⟨c, rest', hv, hc⟩ := announced_unit v
    have hlen : (unit u).length = (unit v).length := by
      rw [hu, hv, List.cons_append, List.cons_append, List.cons.injEq] at h
      rw [hu, hv, List.length_cons, List.length_cons, ← hb, ← hc, h.1]
    obtain ⟨hunit, hrest⟩ := List.append_inj h hlen
    refine ⟨?_, hrest⟩
    rw [← value_unit u, hunit, value_unit]

theorem unit_length_le (u : BitVec 16) : (unit u).length ≤ 3 := by
  unfold unit
  split_ifs <;> simp

end ExynosVendor.Utf8
