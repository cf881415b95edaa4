import Mathlib.Data.Nat.Bitwise

/-!
# RtuA118.Lib.Endian

Numbers as **lanes** of `w` bits, lowest lane first: bytes of a machine word in the
memory of a little-endian processor for `w = 8`, its 16-bit registers for `w = 16`.

Programs exchange lanes by shifting a word, masking one lane and joining the results
with `|`. `shiftRight_and_mask` and `shiftLeft_and_mask` say which lane a masked shift
is, `or_shiftLeft` that joining lanes which do not overlap is adding them up; so such an
expression is `ofLanes` of the lanes it names.
-/

namespace RtuA118.Endian

variable {w : Nat}

/-- Lane `i` of a number. -/
def lane (w i v : Nat) : Nat := v >>> (w * i) % 2 ^ w

/-- The lowest `n` lanes of a number. -/
def lanes (w : Nat) : Nat → Nat → List Nat
  | 0, _ => []
  | n + 1, v => v % 2 ^ w :: lanes w n (v / 2 ^ w)

/-- The number with these lanes. -/
def ofLanes (w : Nat) : List Nat → Nat
  | [] => 0
  | a :: as => a + 2 ^ w * ofLanes w as

@[simp] theorem lanes_length (n v : Nat) : (lanes w n v).length = n := by
  induction n generalizing v with
  | zero => rfl
  | succ n ih => simp [lanes, ih]

theorem lane_lt (i v : Nat) : lane w i v < 2 ^ w := Nat.mod_lt _ (Nat.two_pow_pos w)

@[simp] theorem lane_zero (v : Nat) : lane w 0 v = v % 2 ^ w := by
  simp [lane]

theorem lane_succ (i v : Nat) : lane w (i + 1) v = lane w i (v / 2 ^ w) := by
  simp only [lane, Nat.mul_succ, Nat.add_comm (w * i) w, Nat.pow_add, Nat.shiftRight_eq_div_pow,
    Nat.div_div_eq_div_mul]

theorem lanes_eq_map (n v : Nat) : lanes w n v = (List.range n).map fun i => lane w i v := by
  induction n generalizing v with
  | zero => rfl
  | succ n ih =>
      rw [lanes, ih, List.range_succ_eq_map, List.map_cons, List.map_map, lane_zero]
      simp [lane_succ, Function.comp_def]

/-! ### Lanes and numbers -/

theorem lt_of_mem_lanes {n v a : Nat} (h : a ∈ lanes w n v) : a < 2 ^ w := by
  induction n generalizing v with
  | zero => simp [lanes] at h
  | succ n ih =>
      rcases List.mem_cons.1 h with rfl | h
      · exact Nat.mod_lt _ (Nat.two_pow_pos w)
      · exact ih h

/-- The lanes are what the number is made of, as far as they go. -/
theorem ofLanes_lanes (n v : Nat) : ofLanes w (lanes w n v) = v % 2 ^ (w * n) := by
  induction n generalizing v with
  | zero => simp [lanes, ofLanes, Nat.mod_one]
  | succ n ih =>
      rw [lanes, ofLanes, ih, Nat.mul_succ, Nat.add_comm (w * n), Nat.pow_add, Nat.mod_mul]

theorem lanes_ofLanes {as : List Nat} (h : ∀ a ∈ as, a < 2 ^ w) :
    lanes w as.length (ofLanes w as) = as := by
  induction as with
  | nil => rfl
  | cons a as ih =>
      have ha : a < 2 ^ w := h a List.mem_cons_self
      have hmod : (a + 2 ^ w * ofLanes w as) % 2 ^ w = a := by
        rw [Nat.add_mul_mod_self_left, Nat.mod_eq_of_lt ha]
      have hdiv : (a + 2 ^ w * ofLanes w as) / 2 ^ w = ofLanes w as := by
        rw [Nat.add_mul_div_left _ _ (Nat.two_pow_pos w), Nat.div_eq_of_lt ha, Nat.zero_add]
      rw [List.length_cons, lanes, ofLanes, hmod, hdiv,
        ih fun b hb => h b (List.mem_cons_of_mem _ hb)]

theorem ofLanes_lt {as : List Nat} (h : ∀ a ∈ as, a < 2 ^ w) :
    ofLanes w as < 2 ^ (w * as.length) := by
  have hmod := ofLanes_lanes (w := w) as.length (ofLanes w as)
  rw [lanes_ofLanes h] at hmod
  rw [hmod]
  exact Nat.mod_lt _ (Nat.two_pow_pos _)

/-- One more lane at the top. -/
theorem ofLanes_append_singleton (as : List Nat) (b : Nat) :
    ofLanes w (as ++ [b]) = ofLanes w as + 2 ^ (w * as.length) * b := by
  induction as with
  | nil => simp [ofLanes]
  | cons a as ih =>
      rw [List.cons_append, ofLanes, ih, ofLanes, List.length_cons, Nat.mul_succ,
        Nat.add_comm (w * as.length), Nat.pow_add, Nat.mul_add, Nat.mul_assoc, Nat.add_assoc]

/-- A lane of two halves: the halves are the lanes of half the width. -/
theorem lanes_ofLanes_double {as : List Nat} (h : ∀ a ∈ as, a < 2 ^ (2 * w)) :
    lanes w (2 * as.length) (ofLanes (2 * w) as)
      = as.flatMap fun a => [a % 2 ^ w, a / 2 ^ w] := by
  induction as with
  | nil => rfl
  | cons a as ih =>
      have ha : a / 2 ^ w < 2 ^ w := by
        rw [Nat.div_lt_iff_lt_mul (Nat.two_pow_pos w), ← Nat.pow_add, ← Nat.two_mul]
        exact h a List.mem_cons_self
      have hsplit : a + 2 ^ (2 * w) * ofLanes (2 * w) as
          = a % 2 ^ w + 2 ^ w * (a / 2 ^ w + 2 ^ w * ofLanes (2 * w) as) := by
        rw [Nat.two_mul, Nat.pow_add, Nat.mul_add, ← Nat.add_assoc, Nat.mod_add_div, Nat.mul_assoc]
      have hlow : a % 2 ^ w < 2 ^ w := Nat.mod_lt _ (Nat.two_pow_pos w)
      rw [List.length_cons, Nat.mul_succ, lanes, lanes, ofLanes, hsplit, List.flatMap_cons,
        Nat.add_mul_mod_self_left, Nat.mod_eq_of_lt hlow,
        Nat.add_mul_div_left _ _ (Nat.two_pow_pos w), Nat.div_eq_of_lt hlow, Nat.zero_add,
        Nat.add_mul_mod_self_left, Nat.mod_eq_of_lt ha,
        Nat.add_mul_div_left _ _ (Nat.two_pow_pos w), Nat.div_eq_of_lt ha, Nat.zero_add,
        ih fun b hb => h b (List.mem_cons_of_mem _ hb)]
      rfl

/-! ### Shifts and masks -/

theorem testBit_mask (w j b : Nat) :
    ((2 ^ w - 1) <<< j).testBit b = (decide (j ≤ b) && decide (b - j < w)) := by
  simp [Nat.testBit_shiftLeft, Nat.testBit_two_pow_sub_one]

theorem testBit_lane_shiftLeft (i j v b : Nat) :
    (lane w i v <<< j).testBit b
      = (decide (j ≤ b) && (decide (b - j < w) && v.testBit (w * i + (b - j)))) := by
  simp [lane, Nat.testBit_shiftLeft, Nat.testBit_mod_two_pow, Nat.testBit_shiftRight]

/-- Shifted down and masked at lane `j`, a number shows a lane further up. -/
theorem shiftRight_and_mask (k j v : Nat) :
    v >>> (w * k) &&& (2 ^ w - 1) <<< (w * j) = lane w (k + j) v <<< (w * j) := by
  apply Nat.eq_of_testBit_eq
  intro b
  rw [Nat.testBit_and, testBit_mask, testBit_lane_shiftLeft, Nat.testBit_shiftRight]
  by_cases hb : w * j ≤ b
  · have hbit : w * (k + j) + (b - w * j) = w * k + b := by
      rw [Nat.mul_add]
      omega
    simp [hb, hbit, Bool.and_comm]
  · simp [hb]

/-- Shifted up within `n` lanes and masked, it shows a lane further down. -/
theorem shiftLeft_and_mask {k j n : Nat} (v : Nat) (hn : k + j < n) :
    v <<< (w * k) % 2 ^ (w * n) &&& (2 ^ w - 1) <<< (w * (k + j))
      = lane w j v <<< (w * (k + j)) := by
  apply Nat.eq_of_testBit_eq
  intro b
  rw [Nat.testBit_and, testBit_mask, testBit_lane_shiftLeft, Nat.testBit_mod_two_pow,
    Nat.testBit_shiftLeft]
  have hend : w * (k + j) + w ≤ w * n := by
    rw [← Nat.mul_succ]
    exact Nat.mul_le_mul_left _ hn
  by_cases hb : w * (k + j) ≤ b
  · by_cases hlt : b - w * (k + j) < w
    · have hk : w * k ≤ b := Nat.le_trans (Nat.mul_le_mul_left _ (Nat.le_add_right _ _)) hb
      have hbit : w * j + (b - w * (k + j)) = b - w * k := by
        rw [Nat.mul_add] at hb ⊢
        omega
      have hin : b < w * n := by omega
      simp [hb, hlt, hk, hin, hbit]
    · simp [hb, hlt]
  · simp [hb]

/-- Joining numbers that do not overlap adds them up. -/
theorem or_shiftLeft {a k : Nat} (b : Nat) (h : a < 2 ^ k) : a ||| b <<< k = a + 2 ^ k * b := by
  rw [Nat.shiftLeft_eq, Nat.mul_comm b, Nat.or_comm, Nat.add_comm, Nat.two_pow_add_eq_or_of_lt h]

/-- The lanes `as` joined to a number at position `k`, one after the other. -/
def join (w : Nat) : Nat → Nat → List Nat → Nat
  | a, _, [] => a
  | a, k, b :: bs => join w (a ||| b <<< (w * k)) (k + 1) bs

theorem join_ofLanes (as : List Nat) {bs : List Nat} (h : ∀ a ∈ as ++ bs, a < 2 ^ w) :
    join w (ofLanes w as) as.length bs = ofLanes w (as ++ bs) := by
  induction bs generalizing as with
  | nil => simp [join]
  | cons b bs ih =>
      have hone : ofLanes w as ||| b <<< (w * as.length) = ofLanes w (as ++ [b]) := by
        rw [or_shiftLeft b (ofLanes_lt fun a ha => h a (List.mem_append_left _ ha)),
          ofLanes_append_singleton]
      have hlen : as.length + 1 = (as ++ [b]).length := by simp
      rw [join, hone, hlen, ih _ (by simpa using h), List.append_assoc, List.singleton_append]

/-- Lanes joined from the lowest on are the number with these lanes. -/
theorem join_eq {a : Nat} {as : List Nat} (h : ∀ b ∈ a :: as, b < 2 ^ w) :
    join w a 1 as = ofLanes w (a :: as) := by
  have hone : a = ofLanes w [a] := by simp [ofLanes]
  rw [hone]
  exact join_ofLanes [a] h

end RtuA118.Endian
