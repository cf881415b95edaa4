import RtuA118.Data.History
import RtuA118.Lib.Decimal
import RtuA118.Map.Clock

/-!
# RtuA118.Data.Stamp

The times of the history: of a row, to the second, and of a request, to the minute.

A row's time is the text that SQLite writes for the local time of the insert, a
request's the text that the handler prints from BCD registers. `printMinute_lt_text`
says that comparing the two texts compares the times, `scanTime_text` that the handler
reads a row's time back.
-/

namespace RtuA118

open Decimal (fixed)

/-! ### Times -/

/-- A time to the minute, with fields that fit their columns. -/
structure Minute where
  year : Nat
  month : Nat
  day : Nat
  hour : Nat
  minute : Nat
  year_lt : year < 10000
  month_lt : month < 100
  day_lt : day < 100
  hour_lt : hour < 100
  minute_lt : minute < 100

/-- A time to the second. -/
structure Stamp extends Minute where
  second : Nat
  second_lt : second < 100

namespace Minute

/-- The fields, from the year down. -/
def fields (t : Minute) : List Nat := [t.year, t.month, t.day, t.hour, t.minute]

/-- A field in the unit's BCD. -/
def bcd (t : Minute) (k : Nat) : UInt16 := int16ToBcd (UInt16.ofNat (t.fields.getD k 0))

theorem fields_le (t : Minute) (k : Nat) : t.fields.getD k 0 ≤ 9999 := by
  obtain ⟨y, mo, d, h, mi, hy, hmo, hd, hh, hmi⟩ := t
  unfold fields
  rcases k with _ | _ | _ | _ | _ | k <;> simp <;> omega

/-- The words a request prints are the fields. -/
theorem bcdToInt16_bcd (t : Minute) (k : Nat) :
    (bcdToInt16 (t.bcd k)).toNat = t.fields.getD k 0 := by
  have h := t.fields_le k
  unfold bcd
  obtain ⟨n, hn⟩ : ∃ n, n = t.fields.getD k 0 := ⟨_, rfl⟩
  rw [← hn] at h ⊢
  have hword : (UInt16.ofNat n).toNat = n := by
    rw [UInt16.toNat_ofNat']
    exact Nat.mod_eq_of_lt (Nat.lt_of_le_of_lt h (by decide))
  rw [toNat_bcdToInt16_int16ToBcd (by rw [hword]; exact h), hword]

end Minute

namespace Stamp

/-- The time is later than the full minute. -/
def Later (m : Minute) (t : Stamp) : Prop := m.fields ++ [0] < t.fields ++ [t.second]

instance (m : Minute) (t : Stamp) : Decidable (t.Later m) :=
  inferInstanceAs (Decidable (_ < _))

/-- `YYYY-MM-DD HH:MM:SS`, as `datetime` gives it. -/
def text (t : Stamp) : List Char :=
  fixed 4 t.year ++ '-' :: (fixed 2 t.month ++ '-' :: (fixed 2 t.day ++ ' ' ::
    (fixed 2 t.hour ++ ':' :: (fixed 2 t.minute ++ ':' :: fixed 2 t.second))))

end Stamp

/-! ### Order -/

/-- A field is printed in the digits of its column. -/
theorem printHd_bcd (m : Minute) {w k : Nat} (h : m.fields.getD k 0 < 10 ^ w) (hw : 0 < w) :
    printHd w (bcdToInt16 (m.bcd k)) = fixed w (m.fields.getD k 0) := by
  have hlt : m.fields.getD k 0 < 32768 := Nat.lt_of_le_of_lt (m.fields_le k) (by decide)
  unfold printHd
  rw [m.bcdToInt16_bcd k, if_pos hlt, Decimal.leftpad_toDigits h hw]

/-- The bound a request prints. -/
theorem printMinute_bcd (m : Minute) :
    printMinute (bcdToInt16 (m.bcd 0)) (bcdToInt16 (m.bcd 1)) (bcdToInt16 (m.bcd 2))
        (bcdToInt16 (m.bcd 3)) (bcdToInt16 (m.bcd 4))
      = fixed 4 m.year ++ '-' :: (fixed 2 m.month ++ '-' :: (fixed 2 m.day ++ ' ' ::
          (fixed 2 m.hour ++ ':' :: (fixed 2 m.minute ++ ':' :: fixed 2 0)))) := by
  unfold printMinute
  rw [printHd_bcd m (k := 0) m.year_lt (by decide), printHd_bcd m (k := 1) m.month_lt (by decide),
    printHd_bcd m (k := 2) m.day_lt (by decide), printHd_bcd m (k := 3) m.hour_lt (by decide),
    printHd_bcd m (k := 4) m.minute_lt (by decide)]
  rfl

/-- **The texts compare as the times.** -/
theorem printMinute_lt_text (m : Minute) (t : Stamp) :
    printMinute (bcdToInt16 (m.bcd 0)) (bcdToInt16 (m.bcd 1)) (bcdToInt16 (m.bcd 2))
        (bcdToInt16 (m.bcd 3)) (bcdToInt16 (m.bcd 4)) < t.text ↔ t.Later m := by
  rw [printMinute_bcd]
  unfold Stamp.text Stamp.Later Minute.fields
  rw [Decimal.fixed_append_lt m.year_lt t.year_lt, Decimal.fixed_append_lt m.month_lt t.month_lt,
    Decimal.fixed_append_lt m.day_lt t.day_lt, Decimal.fixed_append_lt m.hour_lt t.hour_lt,
    Decimal.fixed_append_lt m.minute_lt t.minute_lt, Decimal.fixed_lt (by decide) t.second_lt]
  simp only [List.cons_append, List.nil_append, List.cons_lt_cons_iff, List.not_lt_nil, and_false,
    or_false]

/-! ### Reading a time back -/

theorem digitVal_digitChar {d : Nat} (hd : d < 10) : digitVal 10 (Nat.digitChar d) = some d := by
  have h : ∀ d < 10, digitVal 10 (Nat.digitChar d) = some d := by decide
  exact h d hd

/-- Digits of a number of fixed width are scanned to their end. -/
theorem scanDigits_fixed {rest : List Char} : ∀ {w n v c : Nat}, n < 10 ^ w →
    scanDigits 10 (fixed w n ++ rest) v c = scanDigits 10 rest (v * 10 ^ w + n) (c + w) := by
  intro w
  induction w generalizing rest with
  | zero =>
      intro n v c hn
      obtain rfl := Nat.lt_one_iff.1 hn
      simp [fixed]
  | succ w ih =>
      intro n v c hn
      rw [pow_succ] at hn
      have hval : (v * 10 ^ w + n / 10) * 10 + n % 10 = v * 10 ^ (w + 1) + n := by
        rw [pow_succ, ← Nat.mul_assoc]
        omega
      rw [fixed, List.append_assoc, ih (by omega), List.singleton_append, scanDigits,
        digitVal_digitChar (Nat.mod_lt n (by decide))]
      simp only [hval, Nat.add_assoc]

/-- Text that no digit starts. -/
def NoDigit (rest : List Char) : Prop := ∀ c ∈ rest.head?, digitVal 10 c = none

theorem scanDigits_of_noDigit {rest : List Char} {v c : Nat} (h : NoDigit rest) :
    scanDigits 10 rest v c = (v, c, rest) := by
  cases rest with
  | nil => rfl
  | cons d rest =>
      rw [scanDigits, h d rfl]

theorem digitChar_plain {d : Nat} (hd : d < 10) : isSpace (Nat.digitChar d) = false ∧
    Nat.digitChar d ≠ '-' ∧ Nat.digitChar d ≠ '+' := by
  have h : ∀ d < 10, isSpace (Nat.digitChar d) = false ∧ Nat.digitChar d ≠ '-' ∧
      Nat.digitChar d ≠ '+' := by decide
  exact h d hd

/-- A number of fixed width starts with a digit. -/
theorem fixed_head (w n : Nat) : ∃ d < 10, ∃ ds, fixed (w + 1) n = Nat.digitChar d :: ds := by
  induction w generalizing n with
  | zero => exact ⟨n % 10, Nat.mod_lt n (by decide), [], rfl⟩
  | succ w ih =>
      obtain ⟨d, hd, ds, h⟩ := ih (n / 10)
      exact ⟨d, hd, ds ++ [Nat.digitChar (n % 10)], by rw [fixed, h, List.cons_append]⟩

/-- No white space is passed over before it. -/
theorem dropWhile_fixed (w n : Nat) (rest : List Char) :
    (fixed (w + 1) n ++ rest).dropWhile isSpace = fixed (w + 1) n ++ rest := by
  obtain ⟨d, hd, ds, hhead⟩ := fixed_head w n
  simp [hhead, (digitChar_plain hd).1]

/-- `%hd` reads a number of fixed width. -/
theorem scanHd_fixed {w n : Nat} {rest : List Char} (hn : n < 10 ^ (w + 1)) (hn' : n < 32768)
    (hrest : NoDigit rest) : scanHd (fixed (w + 1) n ++ rest) = some (UInt16.ofNat n, rest) := by
  have hdigits : scanDigits 10 (fixed (w + 1) n ++ rest) 0 0 = (n, w + 1, rest) := by
    rw [scanDigits_fixed hn, scanDigits_of_noDigit hrest]
    simp
  obtain ⟨d, hd, ds, hhead⟩ := fixed_head w n
  obtain ⟨-, hminus, hplus⟩ := digitChar_plain hd
  rw [hhead, List.cons_append] at hdigits ⊢
  have hsign : scanSign (Nat.digitChar d :: (ds ++ rest))
      = (false, Nat.digitChar d :: (ds ++ rest)) := by
    unfold scanSign
    split
    · rename_i heq
      exact absurd (List.cons.inj heq).1 hminus
    · rename_i heq
      exact absurd (List.cons.inj heq).1 hplus
    · rfl
  unfold scanHd
  simp only [hsign, hdigits]
  have hword : UInt16.ofInt (n : Int) = UInt16.ofNat n := by
    apply UInt16.toNat_inj.1
    simp [UInt16.ofInt]
    omega
  rw [if_neg Bool.false_ne_true, Nat.min_eq_left (by omega), hword]

/-- A field and its separator. -/
theorem scanFields_fixed {w n : Nat} {sep : Char} {seps rest : List Char}
    (hn : n < 10 ^ (w + 1)) (hn' : n < 32768) (hsep : digitVal 10 sep = none)
    (hrest : rest.dropWhile isSpace = rest) :
    scanFields (sep :: seps) (fixed (w + 1) n ++ sep :: rest)
      = UInt16.ofNat n :: scanFields seps rest := by
  have hstop : NoDigit (sep :: rest) := fun c hc => by
    cases hc
    exact hsep
  rw [scanFields, dropWhile_fixed, scanHd_fixed hn hn' hstop]
  dsimp only
  by_cases hs : isSpace sep = true
  · simp [hs, hrest]
  · simp [hs, scanLit]

theorem scanFields_last {w n : Nat} (hn : n < 10 ^ (w + 1)) (hn' : n < 32768) :
    scanFields [] (fixed (w + 1) n) = [UInt16.ofNat n] := by
  have hdrop := dropWhile_fixed w n []
  have hscan : scanHd (fixed (w + 1) n ++ []) = some (UInt16.ofNat n, []) :=
    scanHd_fixed hn hn' fun c hc => by cases hc
  rw [List.append_nil] at hdrop hscan
  rw [scanFields, hdrop, hscan]

/-- A row's time is read back to the minute. -/
theorem scanTime_text (t : Stamp) (old : Nat → UInt16) {k : Nat} (hk : k < 5) :
    scanTime t.text old k = t.toMinute.bcd k := by
  have hy := t.year_lt
  have hmo := t.month_lt
  have hd := t.day_lt
  have hh := t.hour_lt
  have hmi := t.minute_lt
  have hs := t.second_lt
  have hfields : scanFields ['-', '-', ' ', ':', ':'] t.text
      = (t.fields ++ [t.second]).map UInt16.ofNat := by
    have hlast : (fixed 2 t.second).dropWhile isSpace = fixed 2 t.second := by
      simpa using dropWhile_fixed 1 t.second []
    unfold Stamp.text
    rw [scanFields_fixed (by omega) (by omega) (by decide) (dropWhile_fixed _ _ _),
      scanFields_fixed (by omega) (by omega) (by decide) (dropWhile_fixed _ _ _),
      scanFields_fixed (by omega) (by omega) (by decide) (dropWhile_fixed _ _ _),
      scanFields_fixed (by omega) (by omega) (by decide) (dropWhile_fixed _ _ _),
      scanFields_fixed (by omega) (by omega) (by decide) hlast,
      scanFields_last (by omega) (by omega)]
    rfl
  unfold scanTime Minute.bcd
  rw [hfields]
  rcases k with _ | _ | _ | _ | _ | k
  · rfl
  · rfl
  · rfl
  · rfl
  · rfl
  · omega

end RtuA118
