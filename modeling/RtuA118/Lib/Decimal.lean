import Mathlib.Algebra.Order.Ring.Nat

/-!
# RtuA118.Lib.Decimal

**Fixed-width decimals** and the order of texts made of them.

`fixed w n` is `n` in `w` digits. Among numbers that have so many digits the order of
the texts is the order of the numbers (`fixed_append_lt`), so dates written out from
the year down compare as texts as they do in time.
-/

namespace RtuA118.Decimal

/-- Behind fronts of one length, order is decided by the fronts first. -/
theorem append_lt {α : Type} [LT α] [Std.Irrefl (@LT.lt α _)] {u v : List α} :
    ∀ {x y : List α}, x.length = y.length → (x ++ u < y ++ v ↔ x < y ∨ x = y ∧ u < v) := by
  intro x
  induction x with
  | nil =>
      intro y h
      obtain rfl := List.length_eq_zero_iff.1 h.symm
      simp
  | cons a x ih =>
      intro y h
      cases y with
      | nil => cases h
      | cons b y =>
          simp only [List.cons_append, List.cons_lt_cons_iff, List.cons.injEq,
            ih (Nat.succ.inj h), and_or_left, or_assoc, and_assoc]

/-- `n` in `w` decimal digits, from the highest on. -/
def fixed : Nat → Nat → List Char
  | 0, _ => []
  | w + 1, n => fixed w (n / 10) ++ [Nat.digitChar (n % 10)]

@[simp] theorem fixed_length (w n : Nat) : (fixed w n).length = w := by
  induction w generalizing n with
  | zero => rfl
  | succ w ih => simp [fixed, ih]

/-- It is the shortest decimal, filled up with zeros. -/
theorem leftpad_toDigits {w n : Nat} (h : n < 10 ^ w) (hw : 0 < w) :
    (Nat.toDigits 10 n).leftpad w '0' = fixed w n := by
  induction w generalizing n with
  | zero => exact absurd hw (Nat.lt_irrefl 0)
  | succ w ih =>
      rw [pow_succ] at h
      rcases Nat.eq_zero_or_pos w with rfl | hw'
      · have hn : n < 10 := by omega
        simp [fixed, Nat.toDigits_of_lt_base hn, List.leftpad, Nat.mod_eq_of_lt hn]
      · have hrec := ih (n := n / 10) (by omega) hw'
        rw [fixed, ← hrec]
        rcases Nat.lt_or_ge n 10 with hn | hn
        · obtain ⟨k, rfl⟩ := Nat.exists_eq_succ_of_ne_zero (Nat.ne_of_gt hw')
          simp [Nat.toDigits_of_lt_base hn, List.leftpad, Nat.div_eq_of_lt hn, Nat.mod_eq_of_lt hn,
            List.replicate_succ']
        · rw [Nat.toDigits_of_base_le (by decide) hn]
          simp [List.leftpad]

/-! ### Order -/

theorem digitChar_lt_digitChar {a b : Nat} (ha : a < 10) (hb : b < 10) :
    Nat.digitChar a < Nat.digitChar b ↔ a < b := by
  have h : ∀ a < 10, ∀ b < 10, (Nat.digitChar a < Nat.digitChar b ↔ a < b) := by decide
  exact h a ha b hb

theorem digitChar_inj {a b : Nat} (ha : a < 10) (hb : b < 10) :
    Nat.digitChar a = Nat.digitChar b ↔ a = b := by
  have h : ∀ a < 10, ∀ b < 10, (Nat.digitChar a = Nat.digitChar b ↔ a = b) := by decide
  exact h a ha b hb

theorem fixed_inj {w n m : Nat} (hn : n < 10 ^ w) (hm : m < 10 ^ w) :
    fixed w n = fixed w m ↔ n = m := by
  induction w generalizing n m with
  | zero =>
      rw [pow_zero, Nat.lt_one_iff] at hn hm
      simp [hn, hm]
  | succ w ih =>
      rw [pow_succ] at hn hm
      have hdigit := digitChar_inj (Nat.mod_lt n (y := 10) (by decide))
        (Nat.mod_lt m (y := 10) (by decide))
      constructor
      · intro h
        obtain ⟨hfront, hlast⟩ := List.append_inj' h rfl
        have hdiv := (ih (by omega) (by omega)).1 hfront
        have hmod := hdigit.1 (List.cons.inj hlast).1
        omega
      · rintro rfl
        rfl

theorem fixed_lt {w n m : Nat} (hn : n < 10 ^ w) (hm : m < 10 ^ w) :
    fixed w n < fixed w m ↔ n < m := by
  induction w generalizing n m with
  | zero =>
      rw [pow_zero, Nat.lt_one_iff] at hn hm
      simp [fixed, hn, hm]
  | succ w ih =>
      rw [pow_succ] at hn hm
      have hdigit := digitChar_lt_digitChar (Nat.mod_lt n (y := 10) (by decide))
        (Nat.mod_lt m (y := 10) (by decide))
      rw [fixed, fixed, append_lt (by simp), ih (by omega) (by omega),
        fixed_inj (by omega) (by omega)]
      simp only [List.cons_lt_cons_iff, List.not_lt_nil, and_false, or_false, hdigit]
      omega

/-- A number of fixed width, a separator and a rest: the number decides first. -/
theorem fixed_append_lt {w n m : Nat} {c : Char} {u v : List Char} (hn : n < 10 ^ w)
    (hm : m < 10 ^ w) : fixed w n ++ c :: u < fixed w m ++ c :: v ↔ n < m ∨ n = m ∧ u < v := by
  rw [append_lt (by simp), fixed_lt hn hm, fixed_inj hn hm, List.cons_lt_cons_iff]
  simp

end RtuA118.Decimal
