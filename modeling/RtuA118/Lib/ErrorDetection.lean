import Mathlib.Data.List.Basic
import Mathlib.Data.Nat.Find
import RtuA118.Lib.Crc

/-!
# RtuA118.Lib.ErrorDetection

**What a checksum by shift register detects.**

Words that pass through a register are one number, the first word lowest: `foldl_bitwiseStep`. The
register is linear, so two messages differ in the end by what the register makes of the bits in
which they differ, from zero on. `detected` says which differences it never makes nothing of: an odd
number of bits, two bits less than a period apart, and any within the register's width.
-/

namespace RtuA118.Crc

variable {poly w : Nat}

/-! ### Messages as numbers -/

/-- The words of a message, the first one lowest. -/
def message (n : Nat) (words : List Nat) : Nat := words.foldr (fun b m => b ^^^ m <<< n) 0

/-- **A message passes** through the register as one number. -/
theorem foldl_bitwiseStep (n : Nat) (words : List Nat) (a : Nat) :
    words.foldl (bitwiseStep poly n) a =
      (shiftStep poly)^[n * words.length] (a ^^^ message n words) := by
  induction words generalizing a with
  | nil => simp [message]
  | cons b words ih =>
      have hmsg : message n (b :: words) = b ^^^ message n words <<< n := rfl
      calc
        (b :: words).foldl (bitwiseStep poly n) a
          = (shiftStep poly)^[n * words.length]
              ((shiftStep poly)^[n] (a ^^^ b) ^^^ message n words) := ih _
        _ = (shiftStep poly)^[n * words.length]
              ((shiftStep poly)^[n] (a ^^^ b ^^^ message n words <<< n)) := by
            rw [shiftStep_iterate_xor (a ^^^ b), shiftStep_iterate_shiftLeft]
        _ = (shiftStep poly)^[n * (b :: words).length] (a ^^^ message n (b :: words)) := by
            rw [← Function.iterate_add_apply, List.length_cons, Nat.mul_succ, hmsg, Nat.xor_assoc]

theorem message_lt {n : Nat} {words : List Nat} (h : ∀ b ∈ words, b < 2 ^ n) :
    message n words < 2 ^ (n * words.length) := by
  induction words with
  | nil => simp [message]
  | cons b words ih =>
      obtain ⟨hb, hrest⟩ := List.forall_mem_cons.1 h
      have hshift : message n words <<< n < 2 ^ (n * (b :: words).length) := by
        rw [Nat.shiftLeft_eq, List.length_cons, Nat.mul_succ, Nat.pow_add]
        exact Nat.mul_lt_mul_of_pos_right (ih hrest) (Nat.two_pow_pos n)
      have hfirst : b < 2 ^ (n * (b :: words).length) :=
        hb.trans_le (Nat.pow_le_pow_right Nat.two_pos (by simp [Nat.mul_succ]))
      exact Nat.xor_lt_two_pow hfirst hshift

/-- A bit of a message is a bit of one of its words. -/
theorem testBit_message {n : Nat} (hn : 0 < n) {words : List Nat} (h : ∀ b ∈ words, b < 2 ^ n)
    (i : Nat) : (message n words).testBit i = (words.getD (i / n) 0).testBit (i % n) := by
  induction words generalizing i with
  | nil => simp [message]
  | cons b words ih =>
      obtain ⟨hb, hrest⟩ := List.forall_mem_cons.1 h
      have hmsg : message n (b :: words) = b ^^^ message n words <<< n := rfl
      rw [hmsg, Nat.testBit_xor, Nat.testBit_shiftLeft]
      by_cases hi : n ≤ i
      · -- the bit lies in a later word
        have hdiv : i / n = (i - n) / n + 1 := by
          rw [← Nat.add_div_right _ hn, Nat.sub_add_cancel hi]
        have hmod : i % n = (i - n) % n := Nat.mod_eq_sub_mod hi
        have hhigh : b.testBit i = false :=
          Nat.testBit_lt_two_pow (hb.trans_le (Nat.pow_le_pow_right Nat.two_pos hi))
        rw [hhigh, ih hrest, hdiv, hmod, List.getD_cons_succ]
        simp [hi]
      · rw [Nat.div_eq_of_lt (Nat.lt_of_not_le hi), Nat.mod_eq_of_lt (Nat.lt_of_not_le hi)]
        simp [hi]

/-! ### Nothing is lost in the register -/

theorem shiftStep_lt (hpoly : poly < 2 ^ w) {a : Nat} (ha : a < 2 ^ w) :
    shiftStep poly a < 2 ^ w := by
  have hshift : a >>> 1 < 2 ^ w := (Nat.shiftRight_le a 1).trans_lt ha
  unfold shiftStep
  split
  · exact Nat.xor_lt_two_pow hshift hpoly
  · exact hshift

/-- The register runs empty only where it was. -/
theorem shiftStep_ne_zero (htop : poly.testBit (w - 1) = true) (hw : 0 < w) {a : Nat}
    (ha : a < 2 ^ w) (hne : a ≠ 0) : shiftStep poly a ≠ 0 := by
  unfold shiftStep
  split
  · -- the polynomial sets the top bit, which the shift has cleared
    intro hzero
    have hclear : (a >>> 1).testBit (w - 1) = false := by
      rw [Nat.testBit_shiftRight]
      exact Nat.testBit_lt_two_pow (by rwa [Nat.add_sub_cancel' hw])
    have hbit := congrArg (Nat.testBit · (w - 1)) hzero
    simp [hclear, htop] at hbit
  · rw [Nat.shiftRight_one]
    omega

theorem shiftStep_iterate_ne_zero (hpoly : poly < 2 ^ w) (htop : poly.testBit (w - 1) = true)
    (hw : 0 < w) (n : Nat) {a : Nat} (ha : a < 2 ^ w) (hne : a ≠ 0) :
    (shiftStep poly)^[n] a ≠ 0 := by
  induction n generalizing a with
  | zero => exact hne
  | succ n ih =>
      exact ih (shiftStep_lt hpoly ha) (shiftStep_ne_zero htop hw ha hne)

/-- Zeros in front of a pattern only delay it. -/
theorem shiftStep_iterate_add_shiftLeft (n k a : Nat) :
    (shiftStep poly)^[n + k] (a <<< k) = (shiftStep poly)^[n] a := by
  rw [Function.iterate_add_apply, shiftStep_iterate_shiftLeft]

/-! ### Patterns of wrong bits -/

/-- The places below `m` of the bits that are set. -/
def bitsOf (m e : Nat) : List Nat := (List.range m).filter e.testBit

theorem mem_bitsOf {m e i : Nat} : i ∈ bitsOf m e ↔ i < m ∧ e.testBit i = true := by
  rw [bitsOf, List.mem_filter, List.mem_range]

/-- The number of bits that are set, by halving. -/
def weight : Nat → Nat → Nat
  | 0, _ => 0
  | m + 1, e => e % 2 + weight m (e / 2)

theorem bitsOf_length (m e : Nat) : (bitsOf m e).length = weight m e := by
  induction m generalizing e with
  | zero => rfl
  | succ m ih =>
      have htail : ((List.range m).map Nat.succ).filter e.testBit =
          (bitsOf m (e / 2)).map Nat.succ := by
        rw [List.filter_map]
        congr 1
        exact List.filter_congr fun i _ => Nat.testBit_succ e i
      rw [bitsOf, List.range_succ_eq_map, List.filter_cons, htail, weight, ← ih]
      rcases Nat.mod_two_eq_zero_or_one e with h | h <;> simp [Nat.testBit_zero, h, Nat.add_comm]

theorem weight_xor (m a b : Nat) : weight m (a ^^^ b) % 2 = (weight m a + weight m b) % 2 := by
  induction m generalizing a b with
  | zero => rfl
  | succ m ih =>
      have hhalf : (a ^^^ b) / 2 = a / 2 ^^^ b / 2 := Nat.xor_div_two
      have hlow := Nat.xor_mod_two_eq (m := a) (n := b)
      have hrest := ih (a / 2) (b / 2)
      simp only [weight, hhalf]
      omega

theorem weight_succ {m e : Nat} (h : e < 2 ^ m) : weight (m + 1) e = weight m e := by
  induction m generalizing e with
  | zero =>
      obtain rfl : e = 0 := by omega
      rfl
  | succ m ih =>
      rw [weight, ih (by rw [Nat.pow_succ] at h; omega), weight]

theorem weight_of_lt {m e : Nat} (h : e < 2 ^ w) (hm : w ≤ m) : weight m e = weight w e := by
  induction m, hm using Nat.le_induction with
  | base => rfl
  | succ m hm ih => rw [weight_succ (h.trans_le (Nat.pow_le_pow_right Nat.two_pos hm)), ih]

/-- A polynomial of odd weight keeps the parity. -/
theorem weight_shiftStep {m : Nat} (hodd : weight m poly % 2 = 1) {a : Nat} (ha : a < 2 ^ m) :
    weight m (shiftStep poly a) % 2 = weight m a % 2 := by
  have hhalf : weight m a = a % 2 + weight m (a / 2) := by
    rw [← weight_succ ha, weight]
  rw [hhalf, shiftStep, Nat.shiftRight_one]
  split
  · have hxor := weight_xor m (a / 2) poly
    omega
  · omega

theorem weight_shiftStep_iterate {m : Nat} (hpoly : poly < 2 ^ m) (hodd : weight m poly % 2 = 1)
    (n : Nat) {a : Nat} (ha : a < 2 ^ m) :
    weight m ((shiftStep poly)^[n] a) % 2 = weight m a % 2 := by
  induction n generalizing a with
  | zero => rfl
  | succ n ih =>
      rw [Function.iterate_succ_apply, ih (shiftStep_lt hpoly ha), weight_shiftStep hodd ha]

/-! ### What is detected -/

/-- A run of the register that never comes back. -/
def avoids (f : Nat → Nat) (x : Nat) : Nat → Nat → Bool
  | 0, _ => true
  | n + 1, a => f a != x && avoids f x n (f a)

theorem avoids_iterate {f : Nat → Nat} {x n a d : Nat} (h : avoids f x n a = true) (hd : 0 < d)
    (hn : d ≤ n) : f^[d] a ≠ x := by
  induction n generalizing a d with
  | zero => omega
  | succ n ih =>
      obtain ⟨hne, hrest⟩ := Bool.and_eq_true_iff.1 h
      obtain ⟨k, rfl⟩ : ∃ k, d = k + 1 := ⟨d - 1, by omega⟩
      rw [Function.iterate_succ_apply]
      rcases Nat.eq_zero_or_pos k with rfl | hk
      · exact bne_iff_ne.1 hne
      · exact ih hrest hk (by omega)

/-- Wrong bits that a register of `w` bits notices. -/
inductive Detectable (w : Nat) (bits : List Nat) : Prop where
  | odd (h : bits.length % 2 = 1)
  | two (h : bits.length = 2)
  | burst (hne : bits ≠ []) (h : ∀ i ∈ bits, ∀ j ∈ bits, j < i + w)

/-- A pattern starts at its lowest bit. -/
theorem exists_shiftLeft {m e : Nat} (he : e < 2 ^ m) (hne : bitsOf m e ≠ [])
    (h : ∀ i ∈ bitsOf m e, ∀ j ∈ bitsOf m e, j < i + w) :
    ∃ k p, e = p <<< k ∧ p ≠ 0 ∧ p < 2 ^ w ∧ k ≤ m := by
  have hset : ∃ k, e.testBit k = true :=
    (List.exists_mem_of_ne_nil _ hne).imp fun k hk => (mem_bitsOf.1 hk).2
  have hmem : ∀ j, e.testBit j = true → j ∈ bitsOf m e := by
    intro j hj
    refine mem_bitsOf.2 ⟨Nat.lt_of_not_le fun hle => ?_, hj⟩
    rw [Nat.testBit_lt_two_pow (he.trans_le (Nat.pow_le_pow_right Nat.two_pos hle))] at hj
    cases hj
  obtain ⟨k, hk⟩ : ∃ k, k = Nat.find hset := ⟨_, rfl⟩
  have hbit : e.testBit k = true := hk ▸ Nat.find_spec hset
  have hlow : ∀ j < k, e.testBit j = false := fun j hj =>
    Bool.eq_false_iff.2 (Nat.find_min hset (hk ▸ hj))
  refine ⟨k, e >>> k, Nat.eq_of_testBit_eq fun j => ?_, fun hzero => ?_, ?_,
    (mem_bitsOf.1 (hmem k hbit)).1.le⟩
  · rw [Nat.testBit_shiftLeft, Nat.testBit_shiftRight]
    by_cases hj : k ≤ j
    · simp [hj]
    · simp [hj, hlow j (Nat.lt_of_not_le hj)]
  · have hclear := congrArg (Nat.testBit · 0) hzero
    simp [hbit] at hclear
  · refine Nat.lt_pow_two_of_testBit _ fun j hj => Bool.eq_false_iff.2 fun hset => ?_
    rw [Nat.testBit_shiftRight] at hset
    have hspan := h k (hmem k hbit) (k + j) (hmem _ hset)
    omega

/-- Two bits are one bit and another further on. -/
theorem exists_two {m e : Nat} (he : e < 2 ^ m) (h : (bitsOf m e).length = 2) :
    ∃ i d, 0 < d ∧ i + d < m ∧ e = (1 ^^^ 1 <<< d) <<< i := by
  obtain ⟨i, j, hij⟩ := List.length_eq_two.1 h
  have hsorted : (bitsOf m e).Pairwise (· < ·) := List.pairwise_lt_range.filter _
  rw [hij] at hsorted
  have hlt : i < j := by simpa using hsorted
  have hmem : ∀ k, k ∈ bitsOf m e ↔ k = i ∨ k = j := fun k => by simp [hij]
  have hj := (mem_bitsOf.1 ((hmem j).2 (.inr rfl))).1
  refine ⟨i, j - i, by omega, by omega, Nat.eq_of_testBit_eq fun k => ?_⟩
  have hbit : e.testBit k = decide (k = i ∨ k = j) := by
    by_cases hk : k < m
    · rw [Bool.eq_iff_iff, decide_eq_true_iff, ← hmem k, mem_bitsOf]
      exact ⟨fun h => ⟨hk, h⟩, And.right⟩
    · rw [Nat.testBit_lt_two_pow (he.trans_le (Nat.pow_le_pow_right Nat.two_pos (by omega)))]
      exact (decide_eq_false (by omega)).symm
  have hone : ∀ x, (1 : Nat).testBit x = decide (x = 0) := fun x => by
    rw [Bool.eq_iff_iff, decide_eq_true_iff, Nat.testBit_one_eq_true_iff_self_eq_zero]
  rw [hbit, Nat.testBit_shiftLeft, Nat.testBit_xor, Nat.testBit_shiftLeft, hone, hone]
  grind

section Detected

variable (hpoly : poly < 2 ^ w) (htop : poly.testBit (w - 1) = true) (hw : 0 < w)
include hpoly htop hw

theorem burst_detected {m e : Nat} (he : e < 2 ^ m) (hne : bitsOf m e ≠ [])
    (h : ∀ i ∈ bitsOf m e, ∀ j ∈ bitsOf m e, j < i + w) : (shiftStep poly)^[m] e ≠ 0 := by
  obtain ⟨k, p, rfl, hp, hlt, hk⟩ := exists_shiftLeft he hne h
  have hsplit : m = m - k + k := by omega
  rw [hsplit, shiftStep_iterate_add_shiftLeft]
  exact shiftStep_iterate_ne_zero hpoly htop hw _ hlt hp

theorem two_detected {m e : Nat} (he : e < 2 ^ m) (h : (bitsOf m e).length = 2)
    (hperiod : ∀ d, 0 < d → d < m → (shiftStep poly)^[d] 1 ≠ 1) : (shiftStep poly)^[m] e ≠ 0 := by
  obtain ⟨i, d, hd, hm, rfl⟩ := exists_two he h
  have hsplit : m = m - (i + d) + d + i := by omega
  have hone : 1 < 2 ^ w := Nat.one_lt_two_pow hw.ne'
  have hback : (shiftStep poly)^[d] 1 < 2 ^ w :=
    Function.Iterate.rec (· < 2 ^ w) hone (fun _ => shiftStep_lt hpoly) d
  rw [hsplit, shiftStep_iterate_add_shiftLeft, Function.iterate_add_apply, shiftStep_iterate_xor,
    shiftStep_iterate_shiftLeft]
  refine shiftStep_iterate_ne_zero hpoly htop hw _ (Nat.xor_lt_two_pow hback hone) fun hzero => ?_
  exact hperiod d hd (by omega) (Nat.xor_eq_zero_iff.1 hzero)

/-- **What is detected** in a message of `m` bits. -/
theorem detected {m e : Nat} (hodd : weight w poly % 2 = 1) (hm : w ≤ m)
    (hperiod : ∀ d, 0 < d → d < m → (shiftStep poly)^[d] 1 ≠ 1) (he : e < 2 ^ m)
    (h : Detectable w (bitsOf m e)) : (shiftStep poly)^[m] e ≠ 0 := by
  cases h with
  | two h => exact two_detected hpoly htop hw he h hperiod
  | burst hne h => exact burst_detected hpoly htop hw he hne h
  | odd h =>
      -- the register keeps the parity of what has gone into it
      have hpoly' : poly < 2 ^ m := hpoly.trans_le (Nat.pow_le_pow_right Nat.two_pos hm)
      have hkeep := weight_shiftStep_iterate hpoly' (weight_of_lt hpoly hm ▸ hodd) m he
      intro hzero
      rw [hzero, ← bitsOf_length, ← bitsOf_length, h] at hkeep
      have hnone : bitsOf m 0 = [] := by simp [bitsOf, funext Nat.zero_testBit]
      simp [hnone] at hkeep

end Detected

end RtuA118.Crc
