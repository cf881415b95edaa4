import RtuA118.Lib.Calendar
import RtuA118.Map.RegisterFile

/-!
# RtuA118.Map.Clock

The clock, set through six registers.

`map_settime` replaces one field of the local time and hands the result to `mktime`,
which carries what does not fit its month; the clock then takes the second, unless it
lies before the epoch or beyond the range. A write of the six registers does this six
times, hour first and day last, so the date goes through four dates in between.

`settime_iff` says from where the target is reached: none of the times in between is
out of range (`Representable`), and the day that the year leaves fits the month of the
target. That is a condition on the current date and the target alone (`ClockFits`).
-/

namespace RtuA118

open Calendar

/-! ### The platform's clock -/

/-- The seconds of the calendar before the clock's epoch. -/
def epochSeconds : Int := 86400 * (Date.mk 1970 1 1).number

/-- `struct tm` of a local time. -/
def tmOf (c : Civil) : Tm := ⟨c.hour, c.minute, c.second, c.year - 1900, c.month - 1, c.day⟩

/-- The local time of `struct tm`: months are carried to years, the other fields count on. -/
def civilOfTm (tm : Tm) : Civil :=
  ⟨tm.tmYear + 1900 + tm.tmMon / 12, tm.tmMon % 12 + 1, tm.tmMday, tm.tmHour, tm.tmMin, tm.tmSec⟩

/-- The clock at a local time, `zone` seconds east. -/
def clockOf (zone : Int) (c : Civil) : Int := c.seconds - epochSeconds - zone

/-- The local time of a clock. -/
def civilAt (zone t : Int) : Civil := civilOf (t + epochSeconds + zone)

/-- `localtime` and `mktime` of the Gregorian calendar in a fixed zone, with times from
`-hi - 1` to `hi`. -/
structure PosixClock (env : Platform) (zone hi : Int) : Prop where
  localtime : ∀ t, 0 ≤ t → t ≤ hi → env.localtime t = tmOf (civilAt zone t)
  mktime : ∀ tm, env.mktime tm =
    if -hi - 1 ≤ clockOf zone (civilOfTm tm) ∧ clockOf zone (civilOfTm tm) ≤ hi then
      clockOf zone (civilOfTm tm)
    else -1

/-- The clock can be set to the time. -/
def Representable (zone hi : Int) (c : Civil) : Prop :=
  0 ≤ clockOf zone c ∧ clockOf zone c ≤ hi

instance (zone hi : Int) (c : Civil) : Decidable (Representable zone hi c) :=
  inferInstanceAs (Decidable (_ ∧ _))

theorem clockOf_civilAt (zone t : Int) : clockOf zone (civilAt zone t) = t := by
  unfold clockOf civilAt
  rw [seconds_civilOf]
  omega

theorem civilAt_clockOf (zone : Int) (c : Civil) :
    civilAt zone (clockOf zone c) = civilOf c.seconds := by
  unfold civilAt clockOf
  congr 1
  omega

/-! ### One field -/

/-- The fields of a local time. -/
inductive TimeField where
  | hour
  | minute
  | second
  | year
  | month
  | day
  deriving DecidableEq, Repr

/-- The cell of a field. -/
def TimeField.addr : TimeField → Nat
  | .hour => mapGetTimeHour
  | .minute => mapGetTimeMin
  | .second => mapGetTimeSec
  | .year => mapGetTimeYear
  | .month => mapGetTimeMon
  | .day => mapGetTimeDay

/-- A field replaced. -/
def setField (f : TimeField) (n : Int) (c : Civil) : Civil :=
  match f with
  | .hour => { c with hour := n }
  | .minute => { c with minute := n }
  | .second => { c with second := n }
  | .year => { c with year := n }
  | .month => { c with month := n }
  | .day => { c with day := n }

def fieldOf (f : TimeField) (c : Civil) : Int :=
  match f with
  | .hour => c.hour
  | .minute => c.minute
  | .second => c.second
  | .year => c.year
  | .month => c.month
  | .day => c.day

/-- The clock after one field is set. -/
def setClock (zone hi : Int) (f : TimeField) (n t : Int) : Int :=
  if Representable zone hi (setField f n (civilAt zone t)) then
    clockOf zone (setField f n (civilAt zone t))
  else t

theorem setClock_range {zone hi n t : Int} {f : TimeField} (h : 0 ≤ t ∧ t ≤ hi) :
    0 ≤ setClock zone hi f n t ∧ setClock zone hi f n t ≤ hi := by
  unfold setClock
  split
  · rename_i hrep
    exact hrep
  · exact h

/-- `map_settime` sets the field. -/
theorem mapSettime_time {env : Platform} {zone hi : Int} {s : Rtu} {v : UInt16} {f : TimeField}
    (hclock : PosixClock env zone hi) (h : 0 ≤ s.time ∧ s.time ≤ hi)
    (hmonth : f = .month → 1 ≤ (bcdToInt16 v).toNat ∧ (bcdToInt16 v).toNat ≤ 12) :
    (mapSettime env f.addr v s).time = setClock zone hi f (bcdToInt16 v).toNat s.time := by
  have hc := (civilOf_valid (s.time + epochSeconds + zone)).date
  have hm1 : 1 ≤ (civilAt zone s.time).month := hc.month_pos
  have hm12 : (civilAt zone s.time).month ≤ 12 := hc.month_le
  obtain ⟨tm, htm, hset⟩ : ∃ tm, (mapSettime env f.addr v s).time
      = (if 0 ≤ env.mktime tm then env.mktime tm else s.time) ∧
      civilOfTm tm = setField f (bcdToInt16 v).toNat (civilAt zone s.time) := by
    unfold mapSettime
    rw [hclock.localtime s.time h.1 h.2]
    refine ⟨_, rfl, ?_⟩
    generalize civilAt zone s.time = c at hm1 hm12
    generalize (bcdToInt16 v).toNat = n at hmonth
    cases f with
    | month =>
        obtain ⟨h1, h12⟩ := hmonth rfl
        show Civil.mk (c.year - 1900 + 1900 + ((n : Int) - 1) / 12) (((n : Int) - 1) % 12 + 1)
          _ _ _ _ = _
        unfold setField
        congr 1 <;> omega
    | hour | minute | second | year | day =>
        unfold setField civilOfTm tmOf
        simp only [TimeField.addr, mapGetTimeHour, mapGetTimeMin, mapGetTimeSec, mapGetTimeYear,
          mapGetTimeMon, mapGetTimeDay]
        simp
        omega
  rw [htm, hclock.mktime, hset]
  unfold setClock
  generalize setField f (bcdToInt16 v).toNat (civilAt zone s.time) = c
  by_cases hrep : Representable zone hi c
  · have hin : -hi - 1 ≤ clockOf zone c ∧ clockOf zone c ≤ hi := ⟨by have := hrep.1; omega, hrep.2⟩
    rw [if_pos hrep, if_pos hin, if_pos hrep.1]
  · -- beyond the range `mktime` fails, before the epoch the kernel refuses
    rw [if_neg hrep]
    split
    · rename_i hin
      exact if_neg fun h0 => hrep ⟨h0, hin.2⟩
    · rfl

/-! ### Six fields, over local times -/

section Steps

variable {zone hi : Int} {c target : Civil}

/-- The local time after one field is set. -/
def setCivil (zone hi : Int) (f : TimeField) (n : Int) (c : Civil) : Civil :=
  if Representable zone hi (setField f n c) then civilOf (setField f n c).seconds else c

theorem civilAt_setClock {f : TimeField} {n t : Int} :
    civilAt zone (setClock zone hi f n t) = setCivil zone hi f n (civilAt zone t) := by
  unfold setClock setCivil
  split
  · rw [civilAt_clockOf]
  · rfl

/-- The local time of a clock in range. -/
structure ClockHolds (zone hi : Int) (c : Civil) : Prop where
  valid : c.Valid
  representable : Representable zone hi c

theorem ClockHolds.setCivil (h : ClockHolds zone hi c) (f : TimeField) (n : Int) :
    ClockHolds zone hi (setCivil zone hi f n c) := by
  unfold RtuA118.setCivil
  split
  · rename_i hrep
    refine ⟨civilOf_valid _, ?_⟩
    unfold Representable clockOf at hrep ⊢
    rwa [seconds_civilOf]
  · exact h

theorem clockHolds_civilAt {t : Int} (h : 0 ≤ t ∧ t ≤ hi) :
    ClockHolds zone hi (civilAt zone t) := by
  refine ⟨civilOf_valid _, ?_⟩
  unfold Representable
  rwa [clockOf_civilAt]

/-- Setting a field to what it is changes nothing. -/
theorem setField_fieldOf (f : TimeField) (c : Civil) : setField f (fieldOf f c) c = c := by
  cases f <;> rfl

/-- A field that has come to stand at `n` was accepted. -/
theorem accepted_of_fieldOf {f : TimeField} {n : Int} (h : ClockHolds zone hi c)
    (hf : fieldOf f (setCivil zone hi f n c) = n) : Representable zone hi (setField f n c) := by
  unfold setCivil at hf
  split at hf
  · assumption
  · rw [← hf, setField_fieldOf]
    exact h.representable

theorem setCivil_of_valid {f : TimeField} {n : Int} (hrep : Representable zone hi (setField f n c))
    (hvalid : (setField f n c).Valid) : setCivil zone hi f n c = setField f n c := by
  unfold setCivil
  rw [if_pos hrep, civilOf_seconds hvalid]

/-- The day that a year leaves: 29 February of another year is 1 March. -/
def dayAfterYear (c : Civil) (year : Int) : Int :=
  if c.month = 2 ∧ c.day = 29 ∧ ¬ Leap year then 1 else c.day

theorem day_dateOf_year {year : Int} (h : c.date.Valid) :
    (dateOf (Date.mk year c.month c.day).number).day = dayAfterYear c year := by
  obtain ⟨h1, h12, hd1, hd⟩ := h
  unfold dayAfterYear
  split
  · rename_i hfeb
    obtain ⟨hm, hday, hleap⟩ := hfeb
    have hdays : daysInMonth year 2 = 28 := by
      unfold daysInMonth
      rw [if_pos rfl, if_neg hleap]
    -- the 29th of February of such a year is the 1st of March
    have hmarch : (Date.mk year c.month c.day).number = (Date.mk year 3 1).number := by
      have hnext : daysBeforeMonth year 3 = daysBeforeMonth year 2 + daysInMonth year 2 :=
        daysBeforeMonth_succ (m := 2) (by decide) (by decide)
      unfold Date.number
      dsimp only
      rw [hm, hday, hnext, hdays]
      omega
    have hvalid : (Date.mk year 3 1).Valid :=
      ⟨(by decide : (1 : Int) ≤ 3), (by decide : (3 : Int) ≤ 12), Int.le_refl 1,
        (by decide : (1 : Int) ≤ 31)⟩
    rw [hmarch, dateOf_number hvalid]
  · rename_i hfeb
    have hvalid : (Date.mk year c.month c.day).Valid := by
      refine ⟨h1, h12, hd1, ?_⟩
      show c.day ≤ daysInMonth year c.month
      unfold daysInMonth Civil.date at *
      dsimp only at *
      split at hd
      · rename_i hm
        rw [if_pos hm]
        split
        · split at hd <;> omega
        · rename_i hleap
          split at hd
          · have : c.day ≠ 29 := fun h29 => hfeb ⟨hm, h29, hleap⟩
            omega
          · exact hd
      · rename_i hm
        rw [if_neg hm]
        exact hd
    rw [dateOf_number hvalid]

/-- From where the target is reached. -/
structure ClockFits (zone hi : Int) (c target : Civil) : Prop where
  hour : Representable zone hi { c with hour := target.hour }
  minute : Representable zone hi { c with hour := target.hour, minute := target.minute }
  second : Representable zone hi
    { c with hour := target.hour, minute := target.minute, second := target.second }
  year : Representable zone hi { target with month := c.month, day := c.day }
  month : Representable zone hi { target with day := dayAfterYear c target.year }
  day : dayAfterYear c target.year ≤ daysInMonth target.year target.month

/-- The six fields in the order of their registers. -/
def timeFields : List TimeField := [.hour, .minute, .second, .year, .month, .day]

/-- The local time after some fields are set to the target's. -/
def setCivils (zone hi : Int) (target : Civil) (fs : List TimeField) (c : Civil) : Civil :=
  fs.foldl (fun c f => setCivil zone hi f (fieldOf f target) c) c

theorem setCivils_cons (f : TimeField) (fs : List TimeField) (c : Civil) :
    setCivils zone hi target (f :: fs) c
      = setCivils zone hi target fs (setCivil zone hi f (fieldOf f target) c) := by
  unfold setCivils
  rw [List.foldl_cons]

theorem setCivils_nil (c : Civil) : setCivils zone hi target [] c = c := by
  unfold setCivils
  rw [List.foldl_nil]

theorem setCivils_time (hc : ClockHolds zone hi c) (ht : target.TimeValid)
    (hh : Representable zone hi { c with hour := target.hour })
    (hm : Representable zone hi { c with hour := target.hour, minute := target.minute })
    (hs : Representable zone hi
      { c with hour := target.hour, minute := target.minute, second := target.second }) :
    setCivils zone hi target [.hour, .minute, .second] c
      = { c with hour := target.hour, minute := target.minute, second := target.second } := by
  obtain ⟨h0, h1, h2, h3, h4, h5⟩ := ht
  obtain ⟨c0, c1, c2, c3, c4, c5⟩ := hc.valid.time
  have e1 : setCivil zone hi .hour target.hour c = { c with hour := target.hour } :=
    setCivil_of_valid hh ⟨hc.valid.date, h0, h1, c2, c3, c4, c5⟩
  have e2 : setCivil zone hi .minute target.minute { c with hour := target.hour }
      = { c with hour := target.hour, minute := target.minute } :=
    setCivil_of_valid hm ⟨hc.valid.date, h0, h1, h2, h3, c4, c5⟩
  have e3 : setCivil zone hi .second target.second
      { c with hour := target.hour, minute := target.minute }
      = { c with hour := target.hour, minute := target.minute, second := target.second } :=
    setCivil_of_valid hs ⟨hc.valid.date, h0, h1, h2, h3, h4, h5⟩
  rw [setCivils_cons, setCivils_cons, setCivils_cons, setCivils_nil]
  unfold fieldOf
  dsimp only
  rw [e1, e2, e3]

/-- The year's step: 29 February may run over, into a month that the next step replaces. -/
theorem setCivil_year (hc : ClockHolds zone hi c) (ht : target.TimeValid)
    (hrep : Representable zone hi { target with month := c.month, day := c.day }) :
    ∃ m, setCivil zone hi .year target.year
      { c with hour := target.hour, minute := target.minute, second := target.second }
        = { target with month := m, day := dayAfterYear c target.year } := by
  refine ⟨(dateOf (Date.mk target.year c.month c.day).number).month, ?_⟩
  have hset : setField .year target.year
      { c with hour := target.hour, minute := target.minute, second := target.second }
      = { target with month := c.month, day := c.day } := rfl
  have hd := hc.valid.date
  have hyear : (dateOf (Date.mk target.year c.month c.day).number).year = target.year :=
    year_dateOf_number hd.month_pos hd.month_le hd.day_pos
      (Int.le_trans hd.day_le (daysInMonth_bounds _ _).2)
  have hnumber : ({ target with month := c.month, day := c.day } : Civil).date
      = Date.mk target.year c.month c.day := rfl
  unfold setCivil
  rw [hset, if_pos hrep, civilOf_seconds_of_time (ht.withDate _ _ _), hnumber, hyear,
    day_dateOf_year hd]

/-- From where the times in between fit, the target is reached. -/
theorem ClockFits.reaches (h : ClockFits zone hi c target) (hc : ClockHolds zone hi c)
    (ht : ClockHolds zone hi target) : setCivils zone hi target timeFields c = target := by
  have htime := setCivils_time hc ht.valid.time h.hour h.minute h.second
  obtain ⟨m, e4⟩ := setCivil_year hc ht.valid.time h.year
  have hm := ht.valid.date
  have hpos : 1 ≤ dayAfterYear c target.year := by
    rw [← day_dateOf_year hc.valid.date]
    exact (dateOf_valid _).day_pos
  have hvalid : ({ target with day := dayAfterYear c target.year } : Civil).Valid :=
    ⟨⟨hm.month_pos, hm.month_le, hpos, h.day⟩, ht.valid.time.withDate _ _ _⟩
  have hmonth := h.month
  -- from here on the day that the year left is just a number
  generalize dayAfterYear c target.year = d at e4 hvalid hmonth
  have e5 : setCivil zone hi .month target.month { target with month := m, day := d }
      = { target with day := d } := setCivil_of_valid hmonth hvalid
  have e6 : setCivil zone hi .day target.day { target with day := d } = target :=
    setCivil_of_valid ht.representable ht.valid
  have happ : timeFields = [.hour, .minute, .second] ++ [.year, .month, .day] := rfl
  unfold setCivils at htime ⊢
  rw [happ, List.foldl_append, htime, List.foldl_cons, List.foldl_cons, List.foldl_cons,
    List.foldl_nil]
  unfold fieldOf
  dsimp only
  rw [e4, e5, e6]

/-- Setting a field keeps the others of the time of day. -/
theorem fieldOf_setCivil {f g : TimeField} {n : Int} (htime : (setField f n c).TimeValid)
    (hg : g = .hour ∨ g = .minute ∨ g = .second) (hne : f ≠ g) :
    fieldOf g (setCivil zone hi f n c) = fieldOf g c := by
  have hkeep : fieldOf g (setField f n c) = fieldOf g c := by
    rcases hg with rfl | rfl | rfl <;> cases f <;> first | rfl | exact absurd rfl hne
  unfold setCivil
  split
  · rw [civilOf_seconds_of_time htime, ← hkeep]
    rcases hg with rfl | rfl | rfl <;> rfl
  · rfl

/-- A field of the date does not touch the time of day. -/
theorem setField_time {f : TimeField} (n : Int) (h : c.TimeValid)
    (hf : f = .year ∨ f = .month ∨ f = .day) : (setField f n c).TimeValid := by
  rcases hf with rfl | rfl | rfl <;> exact h.withDate _ _ _

/-- Setting a month or a day keeps the year. -/
theorem year_setCivil {f : TimeField} {n : Int} (hc : ClockHolds zone hi c)
    (hf : f = .month ∧ 1 ≤ n ∧ n ≤ 12 ∨ f = .day ∧ 1 ≤ n ∧ n ≤ 31) :
    (setCivil zone hi f n c).year = c.year := by
  have hd := hc.valid.date
  have hd31 := Int.le_trans hd.day_le (daysInMonth_bounds _ _).2
  unfold setCivil
  split
  · rcases hf with ⟨rfl, h1, h12⟩ | ⟨rfl, h1, h31⟩
    · rw [civilOf_seconds_of_time (setField_time n hc.valid.time (by simp))]
      exact year_dateOf_number h1 h12 hd.day_pos hd31
    · rw [civilOf_seconds_of_time (setField_time n hc.valid.time (by simp))]
      exact year_dateOf_number hd.month_pos hd.month_le h1 h31
  · rfl

/-- Setting a day of the target reaches the target from its month only. -/
theorem month_of_setCivil_day (hc : ClockHolds zone hi c) (hyear : c.year = target.year)
    (ht : target.Valid) (h : setCivil zone hi .day target.day c = target) :
    c.month = target.month := by
  unfold setCivil at h
  split at h
  · have hnumber : (setField .day target.day c).date.number = target.date.number := by
      have hsec := congrArg Civil.date h
      rw [civilOf_seconds_of_time (setField_time target.day hc.valid.time (by simp))] at hsec
      rw [← hsec]
      exact (number_dateOf _).symm
    have hd := hc.valid.date
    unfold Date.number at hnumber
    have hbefore : daysBeforeMonth target.year c.month
        = daysBeforeMonth target.year target.month := by
      have hy : (setField .day target.day c).date.year = target.year := hyear
      have hm : (setField .day target.day c).date.month = c.month := rfl
      have hday : (setField .day target.day c).date.day = target.day := rfl
      have hy' : target.date.year = target.year := rfl
      have hm' : target.date.month = target.month := rfl
      have hday' : target.date.day = target.day := rfl
      rw [hy, hm, hday, hy', hm', hday'] at hnumber
      omega
    exact daysBeforeMonth_inj hd.month_pos hd.month_le ht.date.month_pos ht.date.month_le hbefore
  · rw [h]

/-- Setting the date keeps the time of day. -/
theorem fieldOf_setCivils_date {g : TimeField} : ∀ {fs : List TimeField} {c : Civil},
    ClockHolds zone hi c → (∀ f ∈ fs, f = .year ∨ f = .month ∨ f = .day) →
    (g = .hour ∨ g = .minute ∨ g = .second) →
    fieldOf g (setCivils zone hi target fs c) = fieldOf g c
  | [], c, _, _, _ => by rw [setCivils_nil]
  | f :: fs, c, hc, hfs, hg => by
      have hf := hfs f List.mem_cons_self
      have hne : f ≠ g := by
        rintro rfl
        rcases hf with rfl | rfl | rfl <;> simp at hg
      rw [setCivils_cons, fieldOf_setCivils_date (hc.setCivil _ _)
        (fun f' hf' => hfs f' (List.mem_cons_of_mem _ hf')) hg,
        fieldOf_setCivil (setField_time _ hc.valid.time hf) hg hne]

/-- A month that is still there after it was set has left the day alone. -/
theorem day_setCivil_month {m d : Int} (ht : target.Valid)
    (hrep : Representable zone hi { target with day := d })
    (hc : c = { target with month := m, day := d })
    (hyear : (setCivil zone hi .month target.month c).year = target.year)
    (hmonth : (setCivil zone hi .month target.month c).month = target.month) :
    (setCivil zone hi .month target.month c).day = d := by
  have hset : setField .month target.month c = { target with day := d } := by
    rw [hc]
    rfl
  have hnumber : (setCivil zone hi .month target.month c).date.number
      = (Date.mk target.year target.month d).number := by
    unfold setCivil
    rw [hset, if_pos hrep, civilOf_seconds_of_time (ht.time.withDate _ _ _)]
    exact number_dateOf _
  unfold Date.number Civil.date at hnumber
  dsimp only at hnumber
  rw [hyear, hmonth] at hnumber
  omega

/-- Where the target is reached, the times in between fit. -/
theorem ClockFits.of_reaches (hc : ClockHolds zone hi c) (ht : ClockHolds zone hi target)
    (h : setCivils zone hi target timeFields c = target) : ClockFits zone hi c target := by
  obtain ⟨c1, hc1⟩ : ∃ c', c' = setCivil zone hi .hour target.hour c := ⟨_, rfl⟩
  obtain ⟨c2, hc2⟩ : ∃ c', c' = setCivil zone hi .minute target.minute c1 := ⟨_, rfl⟩
  obtain ⟨c3, hc3⟩ : ∃ c', c' = setCivil zone hi .second target.second c2 := ⟨_, rfl⟩
  obtain ⟨c4, hc4⟩ : ∃ c', c' = setCivil zone hi .year target.year c3 := ⟨_, rfl⟩
  obtain ⟨c5, hc5⟩ : ∃ c', c' = setCivil zone hi .month target.month c4 := ⟨_, rfl⟩
  have h6 : setCivil zone hi .day target.day c5 = target := by
    rw [hc5, hc4, hc3, hc2, hc1]
    exact h
  have s1 : ClockHolds zone hi c1 := hc1 ▸ hc.setCivil _ _
  have s2 : ClockHolds zone hi c2 := hc2 ▸ s1.setCivil _ _
  have s3 : ClockHolds zone hi c3 := hc3 ▸ s2.setCivil _ _
  have s4 : ClockHolds zone hi c4 := hc4 ▸ s3.setCivil _ _
  have s5 : ClockHolds zone hi c5 := hc5 ▸ s4.setCivil _ _
  obtain ⟨t0, t1, t2, t3, t4, t5⟩ := ht.valid.time
  -- the time of day is the one set in the first three steps
  have hlast : setCivils zone hi target [.year, .month, .day] c3 = target := by
    rw [setCivils_cons, setCivils_cons, setCivils_cons, setCivils_nil]
    rw [hc5, hc4] at h6
    exact h6
  have hdate : ∀ g : TimeField, g = .hour ∨ g = .minute ∨ g = .second →
      fieldOf g c3 = fieldOf g target := fun g hg =>
    (fieldOf_setCivils_date s3 (by simp) hg).symm.trans (congrArg (fieldOf g) hlast)
  have htime2 : (setField .second target.second c2).TimeValid := by
    obtain ⟨a0, a1, a2, a3, -, -⟩ := s2.valid.time
    exact ⟨a0, a1, a2, a3, t4, t5⟩
  have htime1 : (setField .minute target.minute c1).TimeValid := by
    obtain ⟨a0, a1, -, -, a4, a5⟩ := s1.valid.time
    exact ⟨a0, a1, t2, t3, a4, a5⟩
  have hhour : c1.hour = target.hour := by
    have h3 := hdate .hour (by simp)
    rw [hc3, fieldOf_setCivil htime2 (by simp) (by simp), hc2,
      fieldOf_setCivil htime1 (by simp) (by simp)] at h3
    exact h3
  have hminute : c2.minute = target.minute := by
    have h3 := hdate .minute (by simp)
    rw [hc3, fieldOf_setCivil htime2 (by simp) (by simp)] at h3
    exact h3
  have hsecond : c3.second = target.second := hdate .second (by simp)
  have r1 := accepted_of_fieldOf hc (f := .hour) (hc1 ▸ hhour)
  have e1 : c1 = { c with hour := target.hour } := by
    obtain ⟨-, -, a2, a3, a4, a5⟩ := hc.valid.time
    exact hc1.trans (setCivil_of_valid r1 ⟨hc.valid.date, t0, t1, a2, a3, a4, a5⟩)
  have r2 := accepted_of_fieldOf s1 (f := .minute) (hc2 ▸ hminute)
  have e2 : c2 = { c with hour := target.hour, minute := target.minute } := by
    rw [hc2, setCivil_of_valid r2 ⟨s1.valid.date, htime1⟩, e1]
    rfl
  have r3 := accepted_of_fieldOf s2 (f := .second) (hc3 ▸ hsecond)
  have e3 : c3
      = { c with hour := target.hour, minute := target.minute, second := target.second } := by
    rw [hc3, setCivil_of_valid r3 ⟨s2.valid.date, htime2⟩, e2]
    rfl
  -- the year is the one set in the fourth
  have htd := ht.valid.date
  have hyear5 : c5.year = c4.year := by
    rw [hc5]
    exact year_setCivil s4 (.inl ⟨rfl, htd.month_pos, htd.month_le⟩)
  have hyear4 : c4.year = target.year := by
    have h31 := Int.le_trans htd.day_le (daysInMonth_bounds _ _).2
    rw [← hyear5, ← h6]
    exact (year_setCivil s5 (.inr ⟨rfl, htd.day_pos, h31⟩)).symm
  have r4 := accepted_of_fieldOf s3 (f := .year) (hc4 ▸ hyear4)
  rw [e3] at r4
  have ryear : Representable zone hi { target with month := c.month, day := c.day } := r4
  obtain ⟨m, e4⟩ := setCivil_year hc ht.valid.time ryear
  rw [← e3, ← hc4] at e4
  -- and the month the one set in the fifth
  have hmonth5 := month_of_setCivil_day s5 (hyear5.trans hyear4) ht.valid h6
  have r5 := accepted_of_fieldOf s4 (f := .month) (hc5 ▸ hmonth5)
  rw [e4] at r5
  have rmonth : Representable zone hi { target with day := dayAfterYear c target.year } := r5
  refine ⟨r1, ?_, ?_, ryear, rmonth, ?_⟩
  · rw [e1] at r2
    exact r2
  · rw [e2] at r3
    exact r3
  · have hday : c5.day = dayAfterYear c target.year := by
      rw [hc5] at hyear5 hmonth5 ⊢
      exact day_setCivil_month ht.valid rmonth e4 (hyear5.trans hyear4) hmonth5
    have hle : c5.day ≤ daysInMonth c5.year c5.month := s5.valid.date.day_le
    rw [hday, hyear5, hyear4, hmonth5] at hle
    exact hle

/-- **Six fields reach the target exactly when the times in between fit.** -/
theorem setCivils_iff (hc : ClockHolds zone hi c) (ht : ClockHolds zone hi target) :
    setCivils zone hi target timeFields c = target ↔ ClockFits zone hi c target :=
  ⟨ClockFits.of_reaches hc ht, fun h => h.reaches hc ht⟩

end Steps

/-! ### Six registers -/

/-- Four decimal digits there and back. -/
theorem toNat_bcdToInt16_int16ToBcd {n : UInt16} (h : n.toNat ≤ 9999) :
    (bcdToInt16 (int16ToBcd n)).toNat = n.toNat := by
  have hbcd : (int16ToBcd n).toNat = n.toNat / 1000 * 4096 + n.toNat / 100 % 10 * 256
      + n.toNat % 100 / 10 * 16 + n.toNat % 10 := by
    unfold int16ToBcd
    rw [if_neg (by omega), UInt16.toNat_ofNat']
    omega
  -- the two bytes hold two digits each
  have hhi : (hiByte (int16ToBcd n)).toNat = n.toNat / 1000 * 16 + n.toNat / 100 % 10 := by
    rw [toNat_hiByte, hbcd]
    omega
  have hlo : (loByte (int16ToBcd n)).toNat = n.toNat % 100 / 10 * 16 + n.toNat % 10 := by
    rw [toNat_loByte, hbcd]
    omega
  have hdigits : ∀ {b : UInt8} {x y : Nat}, x ≤ 9 → y ≤ 9 → b.toNat = x * 16 + y →
      (bcdToInt8 b).toNat = x * 10 + y := by
    intro b x y hx hy hb
    unfold bcdToInt8
    rw [UInt8.toNat_ofNat', hb]
    omega
  have hn : (n.toNat / 1000 * 10 + n.toNat / 100 % 10) * 100
      + (n.toNat % 100 / 10 * 10 + n.toNat % 10) = n.toNat := by
    have h1000 : n.toNat / 100 / 10 = n.toNat / 1000 := Nat.div_div_eq_div_mul _ _ _
    omega
  unfold bcdToInt16
  rw [UInt16.toNat_ofNat', hdigits (by omega) (by omega) hhi, hdigits (by omega) (by omega) hlo, hn]
  omega

/-- The field of cell `4 + k`. -/
def timeField (k : Nat) : TimeField := timeFields.getD k .day

theorem timeField_addr {k : Nat} (hk : k < 6) : (timeField k).addr = mapGetTimeHour + k := by
  obtain rfl | rfl | rfl | rfl | rfl | rfl : k = 0 ∨ k = 1 ∨ k = 2 ∨ k = 3 ∨ k = 4 ∨ k = 5 := by
    omega
  all_goals rfl

/-- Six registers in a row lead to the cells of the clock, for reading and writing. -/
structure TimeRegisters (m : MapT) (w addr : Nat) : Prop where
  well_pos : 1 ≤ w
  well_le : w ≤ maxWellNum
  range : addr + 6 ≤ maxRegisterNum
  room : mapGetTimeDay < m.xMax
  mapped : ∀ k < 6, m.ramYMapType (yBase w + (addr + k)) = .ram
  cell : ∀ k < 6, m.cellOf w (addr + k) = mapGetTimeHour + k
  sys : ∀ k < 6, m.ramXMapType (m.xBase w + (mapGetTimeHour + k)) = .sys
  rw : ∀ k < 6, m.ramXMapRw (m.xBase w + (mapGetTimeHour + k)) = .rw

/-- The words of a time, in BCD. -/
def timeWord (target : Civil) (k : Nat) : UInt16 :=
  int16ToBcd (UInt16.ofInt (fieldOf (timeField k) target))

section Registers

variable {env : Platform} {zone hi : Int} {buf : Nat → UInt16} {bigL : Bool} {w addr : Nat}
  {s : Rtu} {target : Civil}

theorem mapMapFunWrite_time {i : Nat} (v : UInt16) (s : Rtu)
    (hi : mapGetTimeHour ≤ i ∧ i ≤ mapGetTimeDay) :
    mapMapFunWrite env v w i s = some (v, mapSettime env i v s) := by
  have h0 : i ≠ mapChangeWellType := by
    unfold mapChangeWellType
    unfold mapGetTimeHour at hi
    omega
  unfold mapMapFunWrite
  rw [if_neg h0, if_pos hi]

/-- One register's turn sets one field. -/
theorem WriteLoop.turn_time (env : Platform) (buf : Nat → UInt16) (bigL : Bool) {c : WriteLoop}
    {k : Nat} (hreg : TimeRegisters c.rtu.map w addr) (hk : k < 6) (hi : c.i = addr + k) :
    (c.turn env buf bigL w).p = c.p + 1 ∧
      (c.turn env buf bigL w).rtu.map.tables = c.rtu.map.tables ∧
      (c.turn env buf bigL w).rtu.time
        = (mapSettime env (mapGetTimeHour + k) (orderWord bigL (buf c.p)) c.rtu).time := by
  have hin : mapGetTimeHour ≤ mapGetTimeHour + k ∧ mapGetTimeHour + k ≤ mapGetTimeDay := by
    unfold mapGetTimeHour mapGetTimeDay
    omega
  have hx : mapGetTimeHour + k < c.rtu.map.xMax := Nat.lt_of_le_of_lt hin.2 hreg.room
  unfold WriteLoop.turn
  dsimp only
  rw [hi, hreg.mapped k hk, hreg.cell k hk]
  dsimp only
  rw [if_neg (not_not.2 (hreg.rw k hk))]
  dsimp only
  rw [zigbeeWriteRegisters_one hreg.well_pos hreg.well_le, if_pos hx]
  unfold writeCell
  rw [hreg.sys k hk]
  dsimp only
  rw [mapMapFunWrite_time _ _ hin]
  exact ⟨rfl, rfl, rfl⟩

theorem TimeRegisters.of_tables {m m' : MapT} (h : TimeRegisters m w addr)
    (ht : m'.tables = m.tables) : TimeRegisters m' w addr := by
  have hsame := SameMapping.of_tables ht
  refine ⟨h.well_pos, h.well_le, h.range, hsame.xMax ▸ h.room, fun k hk => ?_, fun k hk => ?_,
    fun k hk => ?_, fun k hk => ?_⟩
  · rw [hsame.regType]
    exact h.mapped k hk
  · rw [hsame.cellOf (h.mapped k hk)]
    exact h.cell k hk
  · rw [hsame.cellType, hsame.xBase]
    exact h.sys k hk
  · rw [hsame.cellRw, hsame.xBase]
    exact h.rw k hk

/-- The words that a time's fields are read back from. -/
theorem fieldOf_bound (hvalid : target.Valid) (hyear : 0 ≤ target.year ∧ target.year ≤ 9999)
    (f : TimeField) : 0 ≤ fieldOf f target ∧ fieldOf f target ≤ 9999 := by
  obtain ⟨h0, h1, h2, h3, h4, h5⟩ := hvalid.time
  obtain ⟨hm1, hm12, hd1, hd⟩ := hvalid.date
  have h31 := (daysInMonth_bounds target.date.year target.date.month).2
  unfold Civil.date at *
  cases f <;> unfold fieldOf <;> dsimp only at * <;> omega

theorem toNat_timeWord (hvalid : target.Valid) (hyear : 0 ≤ target.year ∧ target.year ≤ 9999)
    (k : Nat) : ((bcdToInt16 (timeWord target k)).toNat : Int) = fieldOf (timeField k) target := by
  have hb := fieldOf_bound hvalid hyear (timeField k)
  have hofInt : (UInt16.ofInt (fieldOf (timeField k) target)).toNat
      = (fieldOf (timeField k) target).toNat := by
    unfold UInt16.ofInt
    rw [UInt16.toNat_ofNat']
    omega
  unfold timeWord
  rw [toNat_bcdToInt16_int16ToBcd (by omega), hofInt]
  omega

/-- The clock after `n` registers. -/
theorem modbusWriteLoop_time (hclock : PosixClock env zone hi) (hs : 0 ≤ s.time ∧ s.time ≤ hi)
    (hreg : TimeRegisters s.map w addr) (hvalid : target.Valid)
    (hyear : 0 ≤ target.year ∧ target.year ≤ 9999)
    (hbuf : ∀ k < 6, orderWord bigL (buf k) = timeWord target k) {n : Nat} (hn : n ≤ 6) :
    (modbusWriteLoop env buf bigL w addr s n).p = n ∧
      (modbusWriteLoop env buf bigL w addr s n).rtu.map.tables = s.map.tables ∧
      (0 ≤ (modbusWriteLoop env buf bigL w addr s n).rtu.time ∧
        (modbusWriteLoop env buf bigL w addr s n).rtu.time ≤ hi) ∧
      civilAt zone (modbusWriteLoop env buf bigL w addr s n).rtu.time
        = setCivils zone hi target (timeFields.take n) (civilAt zone s.time) := by
  induction n with
  | zero => exact ⟨rfl, rfl, hs, rfl⟩
  | succ n ih =>
      obtain ⟨hp, htab, hrange, hcivil⟩ := ih (by omega)
      obtain ⟨hp', htab', htime⟩ := WriteLoop.turn_time env buf bigL (hreg.of_tables htab)
        (show n < 6 by omega) (modbusWriteLoop_i env buf bigL w addr s n)
      have hset := mapSettime_time (f := timeField n) (v := timeWord target n) hclock hrange
        fun hf => by
          have hm := toNat_timeWord hvalid hyear n
          rw [hf] at hm
          have h1 := hvalid.date.month_pos
          have h12 := hvalid.date.month_le
          unfold fieldOf Civil.date at *
          dsimp only at *
          omega
      rw [timeField_addr (by omega), toNat_timeWord hvalid hyear] at hset
      rw [hp, hbuf n (by omega), hset] at htime
      -- turn `n` has set field `n`, behind those set before
      have htake : timeFields.take (n + 1) = timeFields.take n ++ [timeField n] := by
        have hlen : n < timeFields.length := by
          show n < 6
          omega
        unfold timeField
        rw [List.take_succ_eq_append_getElem hlen, List.getD_eq_getElem _ _ hlen]
      rw [modbusWriteLoop]
      refine ⟨by rw [hp', hp], htab'.trans htab, ?_, ?_⟩
      · rw [htime]
        exact setClock_range hrange
      · rw [htime, civilAt_setClock, hcivil, htake]
        unfold setCivils
        rw [List.foldl_append]
        rfl

/-- **Setting the clock.** One write of the six registers leaves the clock at the target
exactly when the times in between fit. -/
theorem settime_iff (env : Platform) (zone hi : Int) (hclock : PosixClock env zone hi) (s : Rtu)
    (hs : 0 ≤ s.time ∧ s.time ≤ hi) (w addr : Nat) (hreg : TimeRegisters s.map w addr)
    (target : Civil) (hvalid : target.Valid) (hrep : Representable zone hi target)
    (hyear : 0 ≤ target.year ∧ target.year ≤ 9999) (buf : Nat → UInt16) (bigL : Bool)
    (hbuf : ∀ k < 6, orderWord bigL (buf k) = timeWord target k) :
    (mapModbusWriteRegisters env buf 6 w addr bigL s).2.time = clockOf zone target ↔
      ClockFits zone hi (civilAt zone s.time) target := by
  obtain ⟨-, -, -, hcivil⟩ :=
    modbusWriteLoop_time hclock hs hreg hvalid hyear hbuf (Nat.le_refl 6)
  have hland : modbusWriteLanded env buf (6 : Nat) w addr bigL s
      = (0, (modbusWriteLoop env buf bigL w addr s 6).landed,
          (modbusWriteLoop env buf bigL w addr s 6).rtu) :=
    modbusWriteLanded_of_ok hreg.well_pos hreg.well_le (by decide) hreg.range
  have hwrite : (mapModbusWriteRegisters env buf 6 w addr bigL s).2
      = (modbusWriteLoop env buf bigL w addr s 6).rtu := congrArg (fun r => r.2.2) hland
  rw [hwrite, ← setCivils_iff (clockHolds_civilAt hs) ⟨hvalid, hrep⟩]
  have htake : timeFields.take 6 = timeFields := rfl
  rw [htake] at hcivil
  rw [← hcivil]
  constructor
  · intro h
    rw [h, civilAt_clockOf, civilOf_seconds hvalid]
  · intro h
    rw [← h, clockOf_civilAt]

end Registers

/-- A platform whose clock follows the calendar. -/
def gregorian (zone hi : Int) : Platform :=
  { Platform.bare (fun _ => none) with
    localtime := fun t => tmOf (civilAt zone t)
    mktime := fun tm =>
      if -hi - 1 ≤ clockOf zone (civilOfTm tm) ∧ clockOf zone (civilOfTm tm) ≤ hi then
        clockOf zone (civilOfTm tm)
      else -1 }

theorem gregorian_posix (zone hi : Int) : PosixClock (gregorian zone hi) zone hi :=
  ⟨fun _ _ _ => rfl, fun _ => rfl⟩

/-- Register `y` leads to cell `y`, each with code behind it, at a time. -/
def clockUnit (c : Civil) : Rtu :=
  { Rtu.start { emptyMap 10 (fun _ => 0) (fun _ => 0) with
      ramXMapType := fun _ => .sys
      ramXMapRw := fun _ => .rw
      ramY := fun r => UInt16.ofNat (r % maxRegisterNum)
      ramYMapType := fun _ => .ram } with
    time := clockOf 0 c }

theorem clockUnit_registers (c : Civil) : TimeRegisters (clockUnit c).map 1 4 := by
  refine ⟨by decide, by decide, by decide, (by decide : 9 < 10), fun k _ => rfl, fun k hk => ?_,
    fun k _ => rfl, fun k _ => rfl⟩
  have hall : ∀ k < 6, (UInt16.ofNat ((yBase 1 + (4 + k)) % maxRegisterNum)).toNat
      = mapGetTimeHour + k := by decide
  exact hall k hk

/-- The last of January and a day of February. -/
def lastOfJanuary : Civil := ⟨2021, 1, 31, 0, 0, 0⟩
def tenthOfFebruary : Civil := ⟨2021, 2, 10, 0, 0, 0⟩

theorem tenthOfFebruary_valid : tenthOfFebruary.Valid :=
  ⟨⟨by decide, by decide, by decide, by decide⟩,
    ⟨by decide, by decide, by decide, by decide, by decide, by decide⟩⟩

/-- 31 January, set to 10 February, is 10 March. -/
theorem not_settime : ¬ ∀ (env : Platform) (zone hi : Int), PosixClock env zone hi → ∀ (s : Rtu),
    0 ≤ s.time ∧ s.time ≤ hi → ∀ w addr, TimeRegisters s.map w addr → ∀ target : Civil,
    target.Valid → Representable zone hi target → 0 ≤ target.year ∧ target.year ≤ 9999 →
    ∀ (buf : Nat → UInt16) (bigL : Bool), (∀ k < 6, orderWord bigL (buf k) = timeWord target k) →
    (mapModbusWriteRegisters env buf 6 w addr bigL s).2.time = clockOf zone target := by
  intro h
  have hset := h (gregorian 0 2147483647) 0 2147483647 (gregorian_posix _ _)
    (clockUnit lastOfJanuary) (by decide) 1 4 (clockUnit_registers _) tenthOfFebruary
    tenthOfFebruary_valid (by decide) (by decide) (timeWord tenthOfFebruary) false
    fun _ _ => rfl
  exact absurd hset (by decide +kernel)

/-- The same change, judged by the dates. -/
theorem lastOfJanuary_settime_iff :
    (mapModbusWriteRegisters (gregorian 0 2147483647) (timeWord tenthOfFebruary) 6 (1 : Nat)
        (4 : Nat) false (clockUnit lastOfJanuary)).2.time = clockOf 0 tenthOfFebruary ↔
      ClockFits 0 2147483647 (civilAt 0 (clockUnit lastOfJanuary).time) tenthOfFebruary :=
  settime_iff (gregorian 0 2147483647) 0 2147483647 (gregorian_posix _ _) (clockUnit lastOfJanuary)
    (by decide) 1 4 (clockUnit_registers _) tenthOfFebruary tenthOfFebruary_valid (by decide)
    (by decide) (timeWord tenthOfFebruary) false fun _ _ => rfl

end RtuA118
