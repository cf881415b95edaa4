import Mathlib.Data.List.Induction
import RtuA118.Lib.Wrapping
import RtuA118.Serial.ResampledRun

/-!
# RtuA118.Serial.Deadline

`timer_sleep`, and the **deadlines** that `time_handle_fun` waits for.

Both sides of the comparison are milliseconds in 32 bits: seconds since 1970 times 1000, which
wrap every 49.7 days. The deadlines themselves are exact (`synT0_micros`), although their
microseconds are never carried over into seconds.
-/

namespace RtuA118

open Wrapping

/-! ### The wait -/

namespace Timeval

/-- `timer_sleep(&t1)`: the number of the reading it returns at. -/
def timerSleep (t1 : Timeval) : List Timeval → Option Nat
  | [] => none
  | tc :: readings => if tc.later t1 then some 0 else (timerSleep t1 readings).map (· + 1)

/-- The time in microseconds, and in whole milliseconds. -/
def micros (t : Timeval) : Int := t.sec.toInt * 1000000 + t.usec.toInt
def wholeMillis (t : Timeval) : Int := t.micros / 1000

/-- A time as the clock gives it. -/
structure Reading (t : Timeval) : Prop where
  usec : 0 ≤ t.usec.toInt
  normal : t.usec.toInt < 1000000

/-- A reading of the years 2015 to 2037. -/
structure Current (t : Timeval) : Prop extends Reading t where
  from2015 : 1420070400 ≤ t.sec.toInt
  before2038 : t.sec.toInt < 2145916800

instance (t : Timeval) : Decidable t.Reading :=
  decidable_of_iff (0 ≤ t.usec.toInt ∧ t.usec.toInt < 1000000)
    ⟨fun h => ⟨h.1, h.2⟩, fun h => ⟨h.usec, h.normal⟩⟩

instance (t : Timeval) : Decidable t.Current :=
  decidable_of_iff (t.Reading ∧ 1420070400 ≤ t.sec.toInt ∧ t.sec.toInt < 2145916800)
    ⟨fun h => ⟨h.1, h.2.1, h.2.2⟩, fun h => ⟨h.toReading, h.from2015, h.before2038⟩⟩

/-! ### Milliseconds in 32 bits -/

/-- What is compared is what 32 bits keep of the milliseconds. -/
theorem toInt_millis {t : Timeval} (h : 0 ≤ t.usec.toInt) :
    t.millis.toInt = t.wholeMillis.bmod (2 ^ 32) := by
  have h1000 : (1000 : BitVec 32).toInt = 1000 := rfl
  have husec : (t.usec.sdiv 1000).toInt = (t.usec.toInt / 1000).bmod (2 ^ 32) := by
    rw [BitVec.toInt_sdiv, h1000, Int.tdiv_eq_ediv_of_nonneg h]
  have hmillis : t.wholeMillis = t.sec.toInt * 1000 + t.usec.toInt / 1000 := by
    unfold wholeMillis micros
    omega
  rw [millis, BitVec.toInt_add, BitVec.toInt_mul, husec, h1000, Int.bmod_add_bmod,
    Int.add_bmod_bmod, hmillis]

theorem later_iff {r t : Timeval} (hr : 0 ≤ r.usec.toInt) (ht : 0 ≤ t.usec.toInt) :
    r.later t = true ↔ t.wholeMillis.bmod (2 ^ 32) < r.wholeMillis.bmod (2 ^ 32) := by
  rw [later, BitVec.slt_iff_toInt_lt, toInt_millis hr, toInt_millis ht]

/-- The wait compares what 32 bits keep. -/
theorem timerSleep_eq {t1 : Timeval} (ht : 0 ≤ t1.usec.toInt) {readings : List Timeval}
    (hr : ∀ r ∈ readings, 0 ≤ r.usec.toInt) :
    t1.timerSleep readings = (readings.map wholeMillis).findIdx? fun x =>
      decide (t1.wholeMillis.bmod (2 ^ 32) < x.bmod (2 ^ 32)) := by
  induction readings with
  | nil => rfl
  | cons tc readings ih =>
      have hlater := later_iff (hr tc List.mem_cons_self) ht
      rw [timerSleep, List.map_cons, List.findIdx?_cons,
        ih fun r hmem => hr r (List.mem_cons_of_mem _ hmem)]
      simp only [hlater, decide_eq_true_eq]

end Timeval

/-! ### The deadlines -/

/-- `syn_t0` when it is first waited for, and after one more sample. -/
def firstDeadline (now : Timeval) (tmFirst : UInt16) : Timeval :=
  now.plus (tmFirst.toNat / 100) (tmFirst.toNat * 10 % 1000 * 1000)

def nextDeadline (stepTm : UInt16) (t : Timeval) : Timeval :=
  t.plus (stepTm.toNat / 1000) (stepTm.toNat % 1000 * 1000)

/-- `syn_t0` when it is waited for after `k` samples. -/
def synT0 (now : Timeval) (tmFirst stepTm : UInt16) : Nat → Timeval
  | 0 => firstDeadline now tmFirst
  | k + 1 => nextDeadline stepTm (synT0 now tmFirst stepTm k)

/-- The sampling loop waits for them. -/
theorem foldl_store_synT0 (now : Timeval) (tmFirst stepTm : UInt16) (data : SynData)
    (ws : List (List UInt16)) :
    (ws.foldl (fun st words => Samples.store stepTm.toNat words st)
      (Samples.mk 0 data (firstDeadline now tmFirst))).synT0 =
        synT0 now tmFirst stepTm ws.length := by
  induction ws using List.reverseRecOn with
  | nil => rfl
  | append_singleton ws words ih =>
      rw [List.foldl_append, List.length_append, List.length_singleton, synT0, ← ih]
      rfl

/-- When it is due: `tm_first` hundredths of a second from now, and `step_tm` milliseconds more
for each sample. -/
def dueMicros (now : Timeval) (tmFirst stepTm : UInt16) (k : Nat) : Int :=
  now.micros + (tmFirst.toNat * 10000 + k * (stepTm.toNat * 1000) : Nat)

theorem toInt_add_ofNat {x : BitVec 32} {n : Nat} (h0 : 0 ≤ x.toInt)
    (h : x.toInt + n < 2147483648) : (x + BitVec.ofNat 32 n).toInt = x.toInt + n := by
  rw [BitVec.toInt_add, BitVec.toInt_ofNat', Int.add_bmod_bmod]
  exact Int.bmod_eq_of_le (by omega) (by omega)

section Exact

variable {now : Timeval} {tmFirst stepTm : UInt16}

/-- The fields of a deadline: nothing of them is carried, and nothing is lost. -/
theorem synT0_fields (hnow : now.Current) {k : Nat} (hk : k ≤ 250) :
    (synT0 now tmFirst stepTm k).sec.toInt =
        now.sec.toInt + (tmFirst.toNat / 100 + k * (stepTm.toNat / 1000) : Nat) ∧
      (synT0 now tmFirst stepTm k).usec.toInt = now.usec.toInt +
        (tmFirst.toNat * 10 % 1000 * 1000 + k * (stepTm.toNat % 1000 * 1000) : Nat) := by
  obtain ⟨⟨husec, hnormal⟩, hfrom, hbefore⟩ := hnow
  have hfirst := tmFirst.toNat_lt
  have hstep := stepTm.toNat_lt
  induction k with
  | zero =>
      rw [Nat.zero_mul, Nat.zero_mul, Nat.add_zero, Nat.add_zero]
      exact ⟨toInt_add_ofNat (by omega) (by omega), toInt_add_ofNat (by omega) (by omega)⟩
  | succ k ih =>
      obtain ⟨ihsec, ihusec⟩ := ih (by omega)
      have hcoarse := Nat.mul_le_mul (show k ≤ 250 by omega)
        (show stepTm.toNat / 1000 ≤ 65 by omega)
      have hfine := Nat.mul_le_mul (show k ≤ 250 by omega)
        (show stepTm.toNat % 1000 * 1000 ≤ 999000 by omega)
      rw [Nat.succ_mul, Nat.succ_mul]
      refine ⟨(toInt_add_ofNat (by omega) (by omega)).trans ?_,
        (toInt_add_ofNat (by omega) (by omega)).trans ?_⟩
      · rw [ihsec]
        omega
      · rw [ihusec]
        omega

/-- **A deadline is exact.** -/
theorem synT0_micros (hnow : now.Current) {k : Nat} (hk : k ≤ 250) :
    (synT0 now tmFirst stepTm k).micros = dueMicros now tmFirst stepTm k := by
  obtain ⟨hsec, husec⟩ := @synT0_fields now tmFirst stepTm hnow k hk
  have hsplit : stepTm.toNat * 1000 =
      stepTm.toNat / 1000 * 1000000 + stepTm.toNat % 1000 * 1000 := by omega
  rw [Timeval.micros, hsec, husec, dueMicros, Timeval.micros, hsplit, Nat.mul_add,
    ← Nat.mul_assoc k (stepTm.toNat / 1000)]
  omega

end Exact

/-! ### When the wait ends -/

/-- The wait ends at the first reading that is later than the deadline, in whole milliseconds. -/
def EndsInTime (due : Int) (t1 : Timeval) (readings : List Timeval) : Prop :=
  t1.timerSleep readings = readings.findIdx? fun r => decide (due / 1000 < r.wholeMillis)

/-- The readings never go back, start at most 700 seconds before the deadline and come to be
later than it. -/
structure Readings (due : Int) (readings : List Timeval) : Prop where
  reading : ∀ r ∈ readings, r.Reading
  sorted : readings.Pairwise fun r r' => r.micros ≤ r'.micros
  start : ∀ r ∈ readings.head?, due ≤ r.micros + 700000000
  later : ∃ r ∈ readings, due / 1000 < r.wholeMillis

/-- **The wait ends in time** just when the milliseconds do not wrap between the readings and the
deadline. -/
theorem timerSleep_in_time_iff {now : Timeval} {tmFirst stepTm : UInt16} {k : Nat}
    {readings : List Timeval} (hnow : now.Current) (hk : k ≤ 250)
    (hreadings : Readings (dueMicros now tmFirst stepTm k) readings) :
    EndsInTime (dueMicros now tmFirst stepTm k) (synT0 now tmFirst stepTm k) readings ↔
      Unwrapped (2 ^ 32) (dueMicros now tmFirst stepTm k / 1000)
        (readings.map Timeval.wholeMillis) := by
  have husec : 0 ≤ (synT0 now tmFirst stepTm k).usec.toInt := by
    have h0 := hnow.usec
    rw [(synT0_fields hnow hk).2]
    omega
  have hdue : (synT0 now tmFirst stepTm k).wholeMillis = dueMicros now tmFirst stepTm k / 1000 := by
    rw [Timeval.wholeMillis, synT0_micros hnow hk]
  have hmap : (readings.map Timeval.wholeMillis).findIdx?
      (fun x => decide (dueMicros now tmFirst stepTm k / 1000 < x)) = readings.findIdx? fun r =>
        decide (dueMicros now tmFirst stepTm k / 1000 < r.wholeMillis) := List.findIdx?_map
  rw [EndsInTime, Timeval.timerSleep_eq husec fun r hr => (hreadings.reading r hr).usec, hdue,
    ← hmap]
  refine findIdx?_bmod_iff (by decide) ?_ ?_ ?_
  · refine List.pairwise_map.2 (hreadings.sorted.imp fun h => ?_)
    exact Int.ediv_le_ediv (by decide) h
  · intro x hx
    rw [List.head?_map] at hx
    obtain ⟨r, hr, rfl⟩ := Option.map_eq_some_iff.1 hx
    have hstart := hreadings.start r hr
    rw [Timeval.wholeMillis]
    omega
  · obtain ⟨r, hr, hlater⟩ := hreadings.later
    exact ⟨r.wholeMillis, List.mem_map_of_mem hr, hlater⟩

/-- Two readings: one ten seconds before the deadline and one a millisecond after it. -/
def twoReadings (sec : BitVec 32) : List Timeval := [⟨sec, 0⟩, ⟨sec + 10, 1000⟩]

/-- In February 2015 the milliseconds wrap eight seconds after the first reading, which is then
taken for a later one. -/
theorem not_timerSleep_in_time :
    ¬ ∀ (now : Timeval) (tmFirst stepTm : UInt16) (k : Nat) (readings : List Timeval),
      now.Current → k ≤ 250 → Readings (dueMicros now tmFirst stepTm k) readings →
      EndsInTime (dueMicros now tmFirst stepTm k) (synT0 now tmFirst stepTm k) readings := by
  intro h
  have hends := h ⟨1423781650, 0⟩ 1000 0 0 (twoReadings 1423781650) (by decide) (by decide)
    ⟨by decide, by decide, by decide, by decide⟩
  exact absurd hends (by unfold EndsInTime; decide)

/-- Twenty seconds later there is no wrap. -/
theorem twoReadings_in_time :
    EndsInTime (dueMicros ⟨1423781670, 0⟩ 1000 0 0) (synT0 ⟨1423781670, 0⟩ 1000 0 0)
      (twoReadings 1423781670) :=
  (timerSleep_in_time_iff (by decide) (by decide)
    ⟨by decide, by decide, by decide, by decide⟩).2 ⟨by decide, by decide⟩

end RtuA118
