import Mathlib.Data.Nat.Bitwise
import Mathlib.Logic.Function.Iterate

/-!
# RtuA118.Lib.Crc

**Checksums by shift registers** whose lowest bit leaves first.

`shiftStep poly` takes one bit out of a register and `poly` away where it was set; it is linear for
`^^^`. So what `n` of them make of a register is the rest of the register, shifted down, and what
they make of the `n` bits that leave, which a table of `2 ^ n` entries can hold: `foldl_tableStep`.
-/

namespace RtuA118.Crc

variable {poly n : Nat}

/-- One bit leaves the register. -/
def shiftStep (poly a : Nat) : Nat := if a % 2 = 1 then (a >>> 1) ^^^ poly else a >>> 1

/-- `n` bits of a message, bit by bit. -/
def bitwiseStep (poly n a b : Nat) : Nat := (shiftStep poly)^[n] (a ^^^ b)

/-- `n` bits of a message, by a table. -/
def tableStep (table : Nat → Nat) (n a b : Nat) : Nat := (a >>> n) ^^^ table ((a ^^^ b) % 2 ^ n)

theorem shiftStep_xor (a b : Nat) :
    shiftStep poly (a ^^^ b) = shiftStep poly a ^^^ shiftStep poly b := by
  have hshift : (a ^^^ b) >>> 1 = a >>> 1 ^^^ b >>> 1 := Nat.shiftRight_xor_distrib
  simp only [shiftStep, Nat.xor_mod_two_eq_one, hshift]
  by_cases ha : a % 2 = 1
  · by_cases hb : b % 2 = 1
    · -- both take the polynomial away
      rw [if_neg (by simp [ha, hb]), if_pos ha, if_pos hb, Nat.xor_assoc, Nat.xor_comm poly,
        Nat.xor_assoc, Nat.xor_self, Nat.xor_zero]
    · rw [if_pos (by simp [ha, hb]), if_pos ha, if_neg hb, Nat.xor_assoc, Nat.xor_assoc,
        Nat.xor_comm poly]
  · by_cases hb : b % 2 = 1
    · rw [if_pos (by simp [ha, hb]), if_neg ha, if_pos hb, Nat.xor_assoc]
    · rw [if_neg (by simp [ha, hb]), if_neg ha, if_neg hb]

theorem shiftStep_iterate_xor (a b : Nat) :
    (shiftStep poly)^[n] (a ^^^ b) = (shiftStep poly)^[n] a ^^^ (shiftStep poly)^[n] b := by
  induction n generalizing a b with
  | zero => rfl
  | succ n ih => simp only [Function.iterate_succ_apply, shiftStep_xor, ih]

/-- Zeros leave without a trace. -/
theorem shiftStep_iterate_shiftLeft (a : Nat) : (shiftStep poly)^[n] (a <<< n) = a := by
  induction n generalizing a with
  | zero => rfl
  | succ n ih =>
      have heven : (a <<< (n + 1)) % 2 = 0 := by
        rw [Nat.shiftLeft_eq, Nat.pow_succ, ← Nat.mul_assoc, Nat.mul_mod_left]
      have hhalf : (a <<< (n + 1)) >>> 1 = a <<< n := by
        rw [Nat.shiftLeft_succ, Nat.shiftRight_one, Nat.mul_div_cancel_left _ Nat.two_pos]
      rw [Function.iterate_succ_apply, shiftStep, if_neg (by omega), hhalf, ih]

/-- A register is what stays of it and what leaves. -/
theorem xor_mod_two_pow_eq (a n : Nat) : (a >>> n) <<< n ^^^ a % 2 ^ n = a := by
  refine Nat.eq_of_testBit_eq fun i => ?_
  rw [Nat.testBit_xor, Nat.testBit_shiftLeft, Nat.testBit_shiftRight, Nat.testBit_mod_two_pow]
  by_cases hi : n ≤ i
  · simp [hi, Nat.not_lt.2 hi]
  · simp [hi, Nat.not_le.1 hi]

/-- **The bits that leave** decide what the others are changed by. -/
theorem shiftStep_iterate_eq (a : Nat) :
    (shiftStep poly)^[n] a = (a >>> n) ^^^ (shiftStep poly)^[n] (a % 2 ^ n) :=
  calc
    (shiftStep poly)^[n] a = (shiftStep poly)^[n] ((a >>> n) <<< n ^^^ a % 2 ^ n) := by
      rw [xor_mod_two_pow_eq]
    _ = (a >>> n) ^^^ (shiftStep poly)^[n] (a % 2 ^ n) := by
      rw [shiftStep_iterate_xor, shiftStep_iterate_shiftLeft]

section Table

variable {table : Nat → Nat} (htable : ∀ i < 2 ^ n, table i = (shiftStep poly)^[n] i)
include htable

theorem bitwiseStep_eq_tableStep {a b : Nat} (hb : b < 2 ^ n) :
    bitwiseStep poly n a b = tableStep table n a b := by
  have hstay : (a ^^^ b) >>> n = a >>> n := by
    rw [Nat.shiftRight_xor_distrib, Nat.shiftRight_eq_zero b n hb, Nat.xor_zero]
  rw [bitwiseStep, shiftStep_iterate_eq, hstay, tableStep,
    htable _ (Nat.mod_lt _ (Nat.two_pow_pos n))]

/-- **A table** computes the checksum of every message. -/
theorem foldl_tableStep {msg : List Nat} (hmsg : ∀ b ∈ msg, b < 2 ^ n) (a : Nat) :
    msg.foldl (bitwiseStep poly n) a = msg.foldl (tableStep table n) a := by
  induction msg generalizing a with
  | nil => rfl
  | cons b msg ih =>
      obtain ⟨hb, hrest⟩ := List.forall_mem_cons.1 hmsg
      rw [List.foldl_cons, List.foldl_cons, bitwiseStep_eq_tableStep htable hb, ih hrest]

end Table

end RtuA118.Crc
