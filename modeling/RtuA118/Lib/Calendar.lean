import Mathlib.Tactic.Linarith

/-!
# RtuA118.Lib.Calendar

The **proleptic Gregorian calendar**: days numbered from 1 January of year 1, and the
date that a number stands for.

`Date.number` is defined for every day, also one past the end of its month, and such a
day has the number of the date it runs over to. `dateOf` is the inverse on valid dates
(`dateOf_number`, `number_dateOf`). What a date with a day up to 31 can run over to is
the next month and never the next year (`year_dateOf_number`).
-/

namespace RtuA118.Calendar

/-! ### Years and months -/

/-- Years with a 29 February. -/
def Leap (y : Int) : Prop := y % 4 = 0 ∧ (y % 100 ≠ 0 ∨ y % 400 = 0)

instance (y : Int) : Decidable (Leap y) := inferInstanceAs (Decidable (_ ∧ _))

/-- The days before year `y`. -/
def daysBeforeYear (y : Int) : Int :=
  365 * (y - 1) + (y - 1) / 4 - (y - 1) / 100 + (y - 1) / 400

def daysInYear (y : Int) : Int := if Leap y then 366 else 365

theorem daysBeforeYear_succ (y : Int) :
    daysBeforeYear (y + 1) = daysBeforeYear y + daysInYear y := by
  unfold daysBeforeYear daysInYear
  by_cases hl : Leap y
  · rw [if_pos hl]
    unfold Leap at hl
    omega
  · rw [if_neg hl]
    unfold Leap at hl
    omega

theorem daysInYear_bounds (y : Int) : 365 ≤ daysInYear y ∧ daysInYear y ≤ 366 := by
  unfold daysInYear
  split <;> omega

def daysInMonth (y m : Int) : Int :=
  if m = 2 then if Leap y then 29 else 28
  else if m = 4 ∨ m = 6 ∨ m = 9 ∨ m = 11 then 30
  else 31

/-- The days of year `y` before month `m`. -/
def daysBeforeMonth (y m : Int) : Int :=
  (367 * m - 362) / 12 - if m ≤ 2 then 0 else if Leap y then 1 else 2

theorem daysBeforeMonth_one (y : Int) : daysBeforeMonth y 1 = 0 := by
  unfold daysBeforeMonth
  omega

theorem daysBeforeMonth_succ {y m : Int} (h1 : 1 ≤ m) (h12 : m ≤ 12) :
    daysBeforeMonth y (m + 1) = daysBeforeMonth y m + daysInMonth y m := by
  unfold daysBeforeMonth daysInMonth
  obtain rfl | rfl | rfl | rfl | rfl | rfl | rfl | rfl | rfl | rfl | rfl | rfl :
      m = 1 ∨ m = 2 ∨ m = 3 ∨ m = 4 ∨ m = 5 ∨ m = 6 ∨ m = 7 ∨ m = 8 ∨ m = 9 ∨ m = 10 ∨ m = 11 ∨
        m = 12 := by omega
  all_goals by_cases hl : Leap y <;> simp [hl]

/-- The months make up the year. -/
theorem daysBeforeMonth_thirteen (y : Int) : daysBeforeMonth y 13 = daysInYear y := by
  unfold daysBeforeMonth daysInYear
  by_cases hl : Leap y <;> simp [hl]

theorem daysInMonth_bounds (y m : Int) : 28 ≤ daysInMonth y m ∧ daysInMonth y m ≤ 31 := by
  unfold daysInMonth
  split
  · split <;> omega
  · split <;> omega

theorem daysBeforeMonth_lt {y m m' : Int} (h1 : 1 ≤ m) (h13 : m' ≤ 13) (h : m < m') :
    daysBeforeMonth y m + daysInMonth y m ≤ daysBeforeMonth y m' := by
  obtain ⟨k, rfl⟩ : ∃ k : Nat, m' = m + 1 + k := ⟨(m' - (m + 1)).toNat, by omega⟩
  clear h
  induction k with
  | zero =>
      rw [Int.natCast_zero, Int.add_zero, daysBeforeMonth_succ h1 (by omega)]
  | succ k ih =>
      have hstep : daysBeforeMonth y (m + 1 + k + 1)
          = daysBeforeMonth y (m + 1 + k) + daysInMonth y (m + 1 + k) :=
        daysBeforeMonth_succ (by omega) (by omega)
      have hpos := (daysInMonth_bounds y (m + 1 + k)).1
      have := ih (by omega)
      push_cast
      rw [← Int.add_assoc, hstep]
      omega

theorem daysBeforeMonth_inj {y m m' : Int} (h1 : 1 ≤ m) (h12 : m ≤ 12) (h1' : 1 ≤ m')
    (h12' : m' ≤ 12) (h : daysBeforeMonth y m = daysBeforeMonth y m') : m = m' := by
  rcases Int.lt_trichotomy m m' with hlt | heq | hlt
  · have := daysBeforeMonth_lt (y := y) h1 (show m' ≤ 13 by omega) hlt
    have := daysInMonth_bounds y m
    omega
  · exact heq
  · have := daysBeforeMonth_lt (y := y) h1' (show m ≤ 13 by omega) hlt
    have := daysInMonth_bounds y m'
    omega

theorem daysBeforeYear_lt {y y' : Int} (h : y < y') :
    daysBeforeYear y + daysInYear y ≤ daysBeforeYear y' := by
  obtain ⟨k, rfl⟩ : ∃ k : Nat, y' = y + 1 + k := ⟨(y' - (y + 1)).toNat, by omega⟩
  clear h
  induction k with
  | zero => rw [Int.natCast_zero, Int.add_zero, daysBeforeYear_succ]
  | succ k ih =>
      have hpos := (daysInYear_bounds (y + 1 + k)).1
      push_cast
      rw [← Int.add_assoc, daysBeforeYear_succ]
      omega

/-! ### Dates -/

/-- A date, or a day past the end of its month. -/
structure Date where
  year : Int
  month : Int
  day : Int
  deriving DecidableEq, Repr

namespace Date

/-- The number of the day. -/
def number (a : Date) : Int := daysBeforeYear a.year + daysBeforeMonth a.year a.month + a.day

/-- A date of the calendar. -/
structure Valid (a : Date) : Prop where
  month_pos : 1 ≤ a.month
  month_le : a.month ≤ 12
  day_pos : 1 ≤ a.day
  day_le : a.day ≤ daysInMonth a.year a.month

/-- A day up to 31 stays in its year. -/
theorem number_in_year {a : Date} (h1 : 1 ≤ a.month) (h12 : a.month ≤ 12) (hd : 1 ≤ a.day)
    (hd31 : a.day ≤ 31) :
    daysBeforeYear a.year < a.number ∧ a.number ≤ daysBeforeYear a.year + daysInYear a.year := by
  have hy := daysInYear_bounds a.year
  unfold number
  rcases Int.lt_or_eq_of_le h12 with hlt | heq
  · have hnext := daysBeforeMonth_lt (y := a.year) h1 (Int.le_refl 13) (show a.month < 13 by omega)
    have hfirst : 0 ≤ daysBeforeMonth a.year a.month := by
      rcases Int.lt_or_eq_of_le h1 with h | h
      · have := daysBeforeMonth_lt (y := a.year) (Int.le_refl 1) (show a.month ≤ 13 by omega) h
        have := daysInMonth_bounds a.year 1
        rw [daysBeforeMonth_one] at *
        omega
      · rw [← h, daysBeforeMonth_one]
    have hlast := daysBeforeMonth_lt (y := a.year) h1 (show (12 : Int) ≤ 13 by omega) hlt
    have hdec : daysBeforeMonth a.year 13 = daysBeforeMonth a.year 12 + daysInMonth a.year 12 :=
      daysBeforeMonth_succ (by omega) (Int.le_refl 12)
    have hyear := daysBeforeMonth_thirteen a.year
    have hm := daysInMonth_bounds a.year a.month
    have h31 : daysInMonth a.year 12 = 31 := rfl
    omega
  · have hdec : daysBeforeMonth a.year 13 = daysBeforeMonth a.year 12 + daysInMonth a.year 12 :=
      daysBeforeMonth_succ (by omega) (Int.le_refl 12)
    have hyear := daysBeforeMonth_thirteen a.year
    have h31 : daysInMonth a.year 12 = 31 := rfl
    rw [heq]
    omega

end Date

/-! ### The date of a day -/

/-- The year a day is in. The quotient misses by two at most. -/
def yearOf (n : Int) : Int :=
  let y := 400 * n / 146097
  if daysBeforeYear (y + 2) < n then y + 2
  else if daysBeforeYear (y + 1) < n then y + 1
  else y

/-- The month of day `d` of year `y`. -/
def monthOf (y d : Int) : Int :=
  (12 * (d - 1 + if d ≤ daysBeforeMonth y 3 then 0 else if Leap y then 1 else 2) + 373) / 367

/-- The date of a day. -/
def dateOf (n : Int) : Date :=
  let d := n - daysBeforeYear (yearOf n)
  ⟨yearOf n, monthOf (yearOf n) d, d - daysBeforeMonth (yearOf n) (monthOf (yearOf n) d)⟩

theorem yearOf_spec (n : Int) :
    daysBeforeYear (yearOf n) < n ∧ n ≤ daysBeforeYear (yearOf n + 1) := by
  have hlow : daysBeforeYear (400 * n / 146097) < n := by
    unfold daysBeforeYear
    omega
  have hhigh : n ≤ daysBeforeYear (400 * n / 146097 + 2 + 1) := by
    unfold daysBeforeYear
    omega
  unfold yearOf
  dsimp only
  split
  · rename_i h
    exact ⟨h, hhigh⟩
  · rename_i h2
    split
    · rename_i h1
      rw [Int.add_assoc]
      exact ⟨h1, Int.not_lt.1 h2⟩
    · rename_i h1
      exact ⟨hlow, Int.not_lt.1 h1⟩

theorem monthOf_spec {y d : Int} (h1 : 1 ≤ d) (hd : d ≤ daysInYear y) :
    1 ≤ monthOf y d ∧ monthOf y d ≤ 12 ∧ daysBeforeMonth y (monthOf y d) < d ∧
      d ≤ daysBeforeMonth y (monthOf y d + 1) := by
  unfold monthOf daysInYear daysBeforeMonth at *
  by_cases hl : Leap y
  · simp only [if_pos hl] at *
    split <;> omega
  · simp only [if_neg hl] at *
    split <;> omega

/-- A year is where its days are. -/
theorem yearOf_eq {n y : Int} (h1 : daysBeforeYear y < n)
    (h2 : n ≤ daysBeforeYear y + daysInYear y) : yearOf n = y := by
  obtain ⟨hlow, hhigh⟩ := yearOf_spec n
  rw [daysBeforeYear_succ] at hhigh
  rcases Int.lt_trichotomy (yearOf n) y with h | h | h
  · have := daysBeforeYear_lt h
    omega
  · exact h
  · have := daysBeforeYear_lt h
    omega

theorem yearOf_le_yearOf {n n' : Int} (h : n ≤ n') : yearOf n ≤ yearOf n' := by
  obtain ⟨hlow, -⟩ := yearOf_spec n
  obtain ⟨-, hhigh⟩ := yearOf_spec n'
  rcases Int.lt_trichotomy (yearOf n' + 1) (yearOf n) with hlt | heq | hlt
  · have hbefore := daysBeforeYear_lt hlt
    have hyear := daysInYear_bounds (yearOf n' + 1)
    omega
  · rw [heq] at hhigh
    omega
  · omega

/-- Every day has a date. -/
theorem dateOf_valid (n : Int) : (dateOf n).Valid := by
  obtain ⟨hlow, hhigh⟩ := yearOf_spec n
  rw [daysBeforeYear_succ] at hhigh
  obtain ⟨h1, h12, hbefore, hafter⟩ :=
    monthOf_spec (y := yearOf n) (d := n - daysBeforeYear (yearOf n)) (by omega) (by omega)
  rw [daysBeforeMonth_succ h1 h12] at hafter
  refine ⟨h1, h12, ?_, ?_⟩
  · show 1 ≤ n - daysBeforeYear (yearOf n) - _
    omega
  · exact Int.sub_left_le_of_le_add hafter

@[simp] theorem number_dateOf (n : Int) : (dateOf n).number = n := by
  unfold dateOf Date.number
  dsimp only
  omega

namespace Date

theorem Valid.number_in_year {a : Date} (h : a.Valid) :
    daysBeforeYear a.year < a.number ∧ a.number ≤ daysBeforeYear a.year + daysInYear a.year :=
  Date.number_in_year h.month_pos h.month_le h.day_pos
    (Int.le_trans h.day_le (daysInMonth_bounds a.year a.month).2)

/-- Dates have numbers of their own. -/
theorem Valid.number_inj {a b : Date} (ha : a.Valid) (hb : b.Valid) (h : a.number = b.number) :
    a = b := by
  have hay := ha.number_in_year
  have hby := hb.number_in_year
  have hyear : a.year = b.year := by
    rw [← yearOf_eq hay.1 hay.2, ← yearOf_eq hby.1 hby.2, h]
  unfold number at h
  rw [hyear] at h
  have hmonth : a.month = b.month := by
    rcases Int.lt_trichotomy a.month b.month with hlt | heq | hlt
    · have hm := daysBeforeMonth_lt (y := b.year) ha.month_pos
        (Int.le_trans hb.month_le (by decide)) hlt
      have hd := ha.day_le
      have hd' := hb.day_pos
      rw [hyear] at hd
      omega
    · exact heq
    · have hm := daysBeforeMonth_lt (y := b.year) hb.month_pos
        (Int.le_trans ha.month_le (by decide)) hlt
      have hd := hb.day_le
      have hd' := ha.day_pos
      omega
  rw [hmonth] at h
  obtain ⟨y, m, d⟩ := a
  obtain ⟨y', m', d'⟩ := b
  simp only at hyear hmonth h
  subst hyear hmonth
  exact congrArg _ (by omega)

end Date

/-- The date of a date's number is that date. -/
theorem dateOf_number {a : Date} (h : a.Valid) : dateOf a.number = a :=
  (dateOf_valid _).number_inj h (number_dateOf _)

/-- A day up to 31 runs over within its year. -/
theorem year_dateOf_number {a : Date} (h1 : 1 ≤ a.month) (h12 : a.month ≤ 12) (hd : 1 ≤ a.day)
    (hd31 : a.day ≤ 31) : (dateOf a.number).year = a.year := by
  obtain ⟨hlow, hhigh⟩ := Date.number_in_year h1 h12 hd hd31
  exact yearOf_eq hlow hhigh

/-! ### The time of day -/

/-- A date with a time of day. -/
structure Civil where
  year : Int
  month : Int
  day : Int
  hour : Int
  minute : Int
  second : Int
  deriving DecidableEq, Repr

namespace Civil

def date (c : Civil) : Date := ⟨c.year, c.month, c.day⟩

/-- The seconds since the start of the day numbered 0. -/
def seconds (c : Civil) : Int :=
  86400 * c.date.number + (3600 * c.hour + 60 * c.minute + c.second)

/-- A time of day. -/
structure TimeValid (c : Civil) : Prop where
  hour_nonneg : 0 ≤ c.hour
  hour_lt : c.hour < 24
  minute_nonneg : 0 ≤ c.minute
  minute_lt : c.minute < 60
  second_nonneg : 0 ≤ c.second
  second_lt : c.second < 60

/-- The time of day does not depend on the date. -/
theorem TimeValid.withDate {c : Civil} (h : c.TimeValid) (y m d : Int) :
    ({ c with year := y, month := m, day := d } : Civil).TimeValid :=
  ⟨h.hour_nonneg, h.hour_lt, h.minute_nonneg, h.minute_lt, h.second_nonneg, h.second_lt⟩

structure Valid (c : Civil) : Prop where
  date : c.date.Valid
  time : c.TimeValid

end Civil

/-- The date and the time of day of a second. -/
def civilOf (x : Int) : Civil where
  year := (dateOf (x / 86400)).year
  month := (dateOf (x / 86400)).month
  day := (dateOf (x / 86400)).day
  hour := x % 86400 / 3600
  minute := x % 3600 / 60
  second := x % 60

theorem civilOf_valid (x : Int) : (civilOf x).Valid where
  date := dateOf_valid (x / 86400)
  time := by
    refine ⟨?_, ?_, ?_, ?_, ?_, ?_⟩ <;> unfold civilOf <;> dsimp only <;> omega

@[simp] theorem seconds_civilOf (x : Int) : (civilOf x).seconds = x := by
  have hdate : (civilOf x).date.number = x / 86400 := number_dateOf _
  unfold Civil.seconds
  rw [hdate]
  unfold civilOf
  dsimp only
  omega

/-- A time of day stays when the day runs over. -/
theorem civilOf_seconds_of_time {c : Civil} (h : c.TimeValid) : civilOf c.seconds =
    ⟨(dateOf c.date.number).year, (dateOf c.date.number).month, (dateOf c.date.number).day, c.hour,
      c.minute, c.second⟩ := by
  obtain ⟨h0, h1, h2, h3, h4, h5⟩ := h
  have hday : c.seconds / 86400 = c.date.number := by
    unfold Civil.seconds
    omega
  unfold civilOf
  rw [hday]
  unfold Civil.seconds
  congr 1 <;> omega

@[simp] theorem civilOf_seconds {c : Civil} (h : c.Valid) : civilOf c.seconds = c := by
  rw [civilOf_seconds_of_time h.time, dateOf_number h.date]
  rfl

end RtuA118.Calendar
