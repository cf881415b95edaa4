import Mathlib.Algebra.Order.Ring.Nat
import Mathlib.Data.List.Basic

/-!
# RtuA118.Lib.Numeral

**Numerals** and fields of them, read back from what was printed.

`readNumeral` reads a text of digits in some base, `readFields` the texts between the
separators. A reader of digits is a parameter: all that the round trips want of it is that it
knows the digits that `Nat.toDigits` writes (`Digits`).
-/

namespace RtuA118.Numeral

variable {val : Char → Option Nat} {base : Nat}

/-- The reader knows the digits below the base. -/
def Digits (val : Char → Option Nat) (base : Nat) : Prop :=
  ∀ d < base, val (Nat.digitChar d) = some d

instance (val : Char → Option Nat) (base : Nat) : Decidable (Digits val base) :=
  inferInstanceAs (Decidable (∀ _ < _, _))

/-- The value of some more digits behind a number. -/
def readDigits (val : Char → Option Nat) (base : Nat) (n : Nat) : List Char → Option Nat
  | [] => some n
  | c :: cs => do readDigits val base (n * base + (← val c)) cs

/-- The value of a text of digits, of one at least. -/
def readNumeral (val : Char → Option Nat) (base : Nat) (cs : List Char) : Option Nat :=
  if cs = [] then none else readDigits val base 0 cs

theorem readDigits_append (cs ds : List Char) (n : Nat) :
    readDigits val base n (cs ++ ds) =
      (readDigits val base n cs).bind fun m => readDigits val base m ds := by
  induction cs generalizing n with
  | nil => rfl
  | cons c cs ih =>
      simp only [List.cons_append, readDigits, Option.bind_eq_bind, Option.bind_assoc]
      exact Option.bind_congr fun d _ => ih _

/-- Every character of a numeral is a digit of the base. -/
theorem digit_of_mem_toDigits (hb : 1 < base) {n : Nat} {c : Char}
    (h : c ∈ Nat.toDigits base n) : ∃ d < base, c = Nat.digitChar d := by
  induction n using Nat.strong_induction_on with
  | _ n ih =>
      rcases Nat.lt_or_ge n base with hn | hn
      · rw [Nat.toDigits_of_lt_base hn, List.mem_singleton] at h
        exact ⟨n, hn, h⟩
      · rw [Nat.toDigits_of_base_le hb hn, List.mem_append, List.mem_singleton] at h
        rcases h with h | h
        · exact ih (n / base) (Nat.div_lt_self (by omega) hb) h
        · exact ⟨n % base, Nat.mod_lt n (by omega), h⟩

theorem readDigits_toDigits (hv : Digits val base) (hb : 1 < base) (n : Nat) :
    readDigits val base 0 (Nat.toDigits base n) = some n := by
  induction n using Nat.strong_induction_on with
  | _ n ih =>
      rcases Nat.lt_or_ge n base with hn | hn
      · rw [Nat.toDigits_of_lt_base hn]
        simp [readDigits, hv n hn]
      · rw [Nat.toDigits_of_base_le hb hn, readDigits_append,
          ih (n / base) (Nat.div_lt_self (by omega) hb)]
        simp [readDigits, hv (n % base) (Nat.mod_lt n (by omega)), Nat.div_add_mod']

/-- **A printed number reads back.** -/
theorem readNumeral_toDigits (hv : Digits val base) (hb : 1 < base) (n : Nat) :
    readNumeral val base (Nat.toDigits base n) = some n := by
  rw [readNumeral, if_neg Nat.toDigits_ne_nil, readDigits_toDigits hv hb]

/-- Texts that start with no digit are no numerals. -/
theorem readNumeral_cons_of_none {c : Char} (cs : List Char) (hc : val c = none) :
    readNumeral val base (c :: cs) = none := by
  simp [readNumeral, readDigits, hc]

/-! ### Fields -/

/-- The fields between the separators. -/
def readFields (sep : Char) (read : List Char → Option Nat) (cs : List Char) :
    Option (List Nat) :=
  (cs.splitOn sep).mapM read

/-- Between the fields there is nothing but separators. -/
theorem mem_intercalate {sep c : Char} {fields : List (List Char)}
    (h : c ∈ [sep].intercalate fields) : c = sep ∨ ∃ field ∈ fields, c ∈ field := by
  induction fields with
  | nil => cases h
  | cons field fields ih =>
      rcases eq_or_ne fields [] with rfl | hne
      · exact .inr ⟨field, by simp, by simpa using h⟩
      · rw [List.intercalate_cons_of_ne_nil hne, List.append_assoc, List.mem_append,
          List.mem_append, List.mem_singleton] at h
        rcases h with h | h | h
        · exact .inr ⟨field, by simp, h⟩
        · exact .inl h
        · exact (ih h).imp_right fun ⟨f, hf, hc⟩ => ⟨f, List.mem_cons_of_mem _ hf, hc⟩

/-- **Printed fields read back.** -/
theorem readFields_intercalate {α : Type} {sep : Char} {read : List Char → Option Nat}
    {print : α → List Char} {value : α → Nat} {xs : List α} (hne : xs ≠ [])
    (hsep : ∀ x ∈ xs, sep ∉ print x) (hread : ∀ x ∈ xs, read (print x) = some (value x)) :
    readFields sep read ([sep].intercalate (xs.map print)) = some (xs.map value) := by
  unfold readFields
  rw [List.splitOn_intercalate sep (by simpa using hsep) (by simpa using hne), List.mapM_map]
  clear hne hsep
  induction xs with
  | nil => rfl
  | cons x xs ih =>
      rw [List.mapM_cons, Function.comp_apply, hread x (by simp),
        ih fun y hy => hread y (List.mem_cons_of_mem _ hy)]
      rfl

end RtuA118.Numeral
