import RtuA118.Serial.SampledRun

/-!
# RtuA118.Serial.SamplingLoop

The **sampling loop** of `time_handle_fun`, turn by turn.

Only a sample that was read takes the loop further, and only failures in a row are counted, so
neither counter bounds the turns alone: a sample costs at most six reads, five that fail and one
that does not. `samplingRun_induct` is the induction along a run, and `samplingProgram_eq` says that
`sampleLoop`, which stops by its construction, is this loop.
-/

namespace RtuA118

open Program Serial

/-! ### The loop -/

/-- What the loop only reads: `m`, `step_tm` and `syn_t1`. -/
structure SamplingParams where
  m : UInt16
  stepTm : UInt16
  synT1 : Timeval

/-- What it changes. -/
structure Sampling extends Samples where
  n : UInt16
  readCnt : UInt8

/-- `m`, and `n` at first. -/
def cappedPoints (points : UInt16) : UInt16 := if points > 250 then 250 else points

/-- `time_handle_fun` up to the loop, with the clock at `now`. There is no loop where the message
is refused; where it asks for no points the program divides by 0, and goes on only where that
leaves something in `step_tm`. -/
def samplingStart (byZero : Option UInt16) (info : SynInfo) (now : Timeval) :
    Option (SamplingParams × Sampling) :=
  let tmFirst : UInt16 := .ofNat (info.cycleTime.toNat / 2 + info.synchronTime.toNat)
  let synT0 := now.plus (tmFirst.toNat / 100) (tmFirst.toNat * 10 % 1000 * 1000)
  if info.cycleTime < 1000 then none
  else if info.cycleTime > 10000 then none
  else
    let m := cappedPoints info.samplePoints
    let quotient := if m = 0 then byZero else some (.ofNat (info.cycleTime.toNat * 10 / m.toNat))
    let synT1 := synT0.plus (info.cycleTime.toNat / 100) (info.cycleTime.toNat * 10 % 1000 * 1000)
    quotient.map fun stepTm =>
      if stepTm < 100 then
        (⟨m, 100, synT1⟩, ⟨⟨0, .filled, synT0⟩, .ofNat (info.cycleTime.toNat * 10 / 100), 0⟩)
      else (⟨m, stepTm, synT1⟩, ⟨⟨0, .filled, synT0⟩, m, 0⟩)

/-- How a turn ends: in the next one, behind the loop, or with -1. -/
inductive Looped where
  | again (st : Sampling)
  | left (n : UInt16) (samples : Samples)
  | returned

/-- What the loop does: it looks at the clock, reads the registers and stores a sample. -/
inductive SampleEvent where
  | clock (t : Timeval)
  | read (words : Option (List UInt16))
  | store (current power : Nat)

namespace Sampling

/-- The deadline is past: `n` is lowered to the samples there are. -/
def late (p : SamplingParams) (st : Sampling) : Looped :=
  let n : UInt16 := .ofNat st.i
  if n.toNat < p.m.toNat / 2 then .returned else .left n st.toSamples

/-- A read has failed. -/
def failed (st : Sampling) : Looped :=
  let readCnt := st.readCnt + 1
  if readCnt > 5 then .returned else .again { st with readCnt }

/-- A read has not. -/
def measured (p : SamplingParams) (words : List UInt16) (st : Sampling) : Sampling :=
  { st.toSamples.store p.stepTm.toNat words with n := st.n, readCnt := 0 }

end Sampling

/-- A turn of the loop, where the clock and the read give what they give. -/
def samplingTurn (p : SamplingParams) (input : Timeval × Option (List UInt16)) (st : Sampling) :
    Looped × List SampleEvent :=
  if st.i < st.n.toNat then
    if input.1.later p.synT1 then (st.late p, [.clock input.1])
    else
      match input.2 with
      | none => (st.failed, [.clock input.1, .read none])
      | some words =>
          (.again (st.measured p words),
            [.clock input.1, .read (some words), .store (st.i % 250) (st.i % 250 + 250)])
  else (.left st.n st.toSamples, [])

/-- The loop, for as many turns as there is input. -/
def samplingRun (p : SamplingParams) :
    List (Timeval × Option (List UInt16)) → Sampling → Looped × List SampleEvent
  | [], st => (.again st, [])
  | input :: inputs, st =>
      match samplingTurn p input st with
      | (.again st, events) =>
          let r := samplingRun p inputs st
          (r.1, events ++ r.2)
      | r => r

/-- The reads of a run, and its stores. -/
def readsOf (events : List SampleEvent) : List (Option (List UInt16)) :=
  events.filterMap fun | .read words => some words | _ => none

def storesOf (events : List SampleEvent) : List (Nat × Nat) :=
  events.filterMap fun | .store current power => some (current, power) | _ => none

section Turn

variable {p : SamplingParams} {t : Timeval} {o : Option (List UInt16)} {st : Sampling}

theorem Sampling.late_of_lt (h : (UInt16.ofNat st.i).toNat < p.m.toNat / 2) :
    st.late p = .returned := if_pos h

theorem Sampling.late_of_not_lt (h : ¬ (UInt16.ofNat st.i).toNat < p.m.toNat / 2) :
    st.late p = .left (.ofNat st.i) st.toSamples := if_neg h

theorem Sampling.failed_of_gt (h : st.readCnt + 1 > 5) : st.failed = .returned := if_pos h

theorem Sampling.failed_of_not_gt (h : ¬ st.readCnt + 1 > 5) :
    st.failed = .again { st with readCnt := st.readCnt + 1 } := if_neg h

theorem samplingTurn_done (hi : st.n.toNat ≤ st.i) :
    samplingTurn p (t, o) st = (.left st.n st.toSamples, []) :=
  if_neg (Nat.not_lt.2 hi)

theorem samplingTurn_late (hi : st.i < st.n.toNat) (ht : t.later p.synT1 = true) :
    samplingTurn p (t, o) st = (st.late p, [.clock t]) := by
  simp [samplingTurn, hi, ht]

theorem samplingTurn_failed (hi : st.i < st.n.toNat) (ht : ¬ t.later p.synT1 = true) :
    samplingTurn p (t, none) st = (st.failed, [.clock t, .read none]) := by
  simp [samplingTurn, hi, ht]

theorem samplingTurn_measured {words : List UInt16} (hi : st.i < st.n.toNat)
    (ht : ¬ t.later p.synT1 = true) :
    samplingTurn p (t, some words) st = (.again (st.measured p words),
      [.clock t, .read (some words), .store (st.i % 250) (st.i % 250 + 250)]) := by
  simp [samplingTurn, hi, ht]

end Turn

section Run

variable {p : SamplingParams} {input : Timeval × Option (List UInt16)}
  {inputs : List (Timeval × Option (List UInt16))} {st st' : Sampling}
  {events : List SampleEvent}

theorem samplingRun_of_again (h : samplingTurn p input st = (.again st', events)) :
    samplingRun p (input :: inputs) st =
      ((samplingRun p inputs st').1, events ++ (samplingRun p inputs st').2) := by
  rw [samplingRun, h]

theorem samplingRun_of_left {n : UInt16} {samples : Samples}
    (h : samplingTurn p input st = (.left n samples, events)) :
    samplingRun p (input :: inputs) st = (.left n samples, events) := by
  rw [samplingRun, h]

theorem samplingRun_of_returned (h : samplingTurn p input st = (.returned, events)) :
    samplingRun p (input :: inputs) st = (.returned, events) := by
  rw [samplingRun, h]

theorem samplingRun_late {t : Timeval} {o : Option (List UInt16)} (hi : st.i < st.n.toNat)
    (ht : t.later p.synT1 = true) : (samplingRun p ((t, o) :: inputs) st).1 = st.late p := by
  have hturn := samplingTurn_late (o := o) hi ht
  by_cases hm : (UInt16.ofNat st.i).toNat < p.m.toNat / 2
  · rw [Sampling.late_of_lt hm] at hturn ⊢
    rw [samplingRun_of_returned hturn]
  · rw [Sampling.late_of_not_lt hm] at hturn ⊢
    rw [samplingRun_of_left hturn]

/-- **Along a run** of `k` turns at most. It stops with its input, or comes to one of its ends; or
it has a turn in which the read failed, or gave a sample, and goes on. -/
theorem samplingRun_induct {motive : Nat → Sampling → Looped → List SampleEvent → Prop}
    (stop : ∀ st, motive 0 st (.again st) [])
    (done : ∀ k st, st.n.toNat ≤ st.i → motive k st (.left st.n st.toSamples) [])
    (late : ∀ k st t, st.i < st.n.toNat → t.later p.synT1 = true →
      motive k st (.left (.ofNat st.i) st.toSamples) [.clock t])
    (tooLate : ∀ k st t, st.i < st.n.toNat → t.later p.synT1 = true →
      (UInt16.ofNat st.i).toNat < p.m.toNat / 2 → motive k st .returned [.clock t])
    (gaveUp : ∀ k st t, st.i < st.n.toNat → st.readCnt + 1 > 5 →
      motive k st .returned [.clock t, .read none])
    (failed : ∀ k st t r events, st.i < st.n.toNat → ¬ st.readCnt + 1 > 5 →
      motive k { st with readCnt := st.readCnt + 1 } r events →
      motive (k + 1) st r (.clock t :: .read none :: events))
    (measured : ∀ k st t words r events, st.i < st.n.toNat →
      motive k (st.measured p words) r events →
      motive (k + 1) st r (.clock t :: .read (some words) ::
        .store (st.i % 250) (st.i % 250 + 250) :: events))
    (inputs : List (Timeval × Option (List UInt16))) (st : Sampling) :
    motive inputs.length st (samplingRun p inputs st).1 (samplingRun p inputs st).2 := by
  induction inputs generalizing st with
  | nil => exact stop st
  | cons input inputs ih =>
      obtain ⟨t, o⟩ := input
      rcases Nat.lt_or_ge st.i st.n.toNat with hi | hi
      · by_cases ht : t.later p.synT1 = true
        · have hturn := samplingTurn_late (o := o) hi ht
          by_cases hm : (UInt16.ofNat st.i).toNat < p.m.toNat / 2
          · rw [Sampling.late_of_lt hm] at hturn
            rw [samplingRun_of_returned hturn]
            exact tooLate _ st t hi ht hm
          · rw [Sampling.late_of_not_lt hm] at hturn
            rw [samplingRun_of_left hturn]
            exact late _ st t hi ht
        · cases o with
          | none =>
              have hturn := samplingTurn_failed hi ht
              by_cases hcnt : st.readCnt + 1 > 5
              · rw [Sampling.failed_of_gt hcnt] at hturn
                rw [samplingRun_of_returned hturn]
                exact gaveUp _ st t hi hcnt
              · rw [Sampling.failed_of_not_gt hcnt] at hturn
                rw [samplingRun_of_again hturn]
                exact failed _ st t _ _ hi hcnt (ih _)
          | some words =>
              rw [samplingRun_of_again (samplingTurn_measured hi ht)]
              exact measured _ st t words _ _ hi (ih _)
      · rw [samplingRun_of_left (samplingTurn_done hi)]
        exact done _ st hi

end Run

/-! ### The bounds -/

section Bounds

variable {p : SamplingParams} {events : List SampleEvent} {st : Sampling}

@[simp] theorem readsOf_nil : readsOf [] = [] := rfl
@[simp] theorem readsOf_clock {t : Timeval} :
    readsOf (.clock t :: events) = readsOf events := rfl
@[simp] theorem readsOf_read {words : Option (List UInt16)} :
    readsOf (.read words :: events) = words :: readsOf events := rfl
@[simp] theorem readsOf_store {a b : Nat} :
    readsOf (.store a b :: events) = readsOf events := rfl

@[simp] theorem storesOf_nil : storesOf [] = [] := rfl
@[simp] theorem storesOf_clock {t : Timeval} :
    storesOf (.clock t :: events) = storesOf events := rfl
@[simp] theorem storesOf_read {words : Option (List UInt16)} :
    storesOf (.read words :: events) = storesOf events := rfl
@[simp] theorem storesOf_store {a b : Nat} :
    storesOf (.store a b :: events) = (a, b) :: storesOf events := rfl

/-- `read_cnt` does not wrap. -/
theorem readCnt_add_one (h : st.readCnt.toNat ≤ 5) :
    (st.readCnt + 1).toNat = st.readCnt.toNat + 1 := by
  rw [UInt8.toNat_add]
  exact Nat.mod_eq_of_lt (Nat.lt_of_le_of_lt (Nat.succ_le_succ h) (by decide))

theorem readCnt_le (h : ¬ st.readCnt + 1 > 5) : (st.readCnt + 1).toNat ≤ 5 :=
  UInt8.le_iff_toNat_le.1 (UInt8.not_lt.1 h)

/-- **Six reads for each sample** that is missing, less those that have failed already. -/
theorem samplingRun_reads (inputs : List (Timeval × Option (List UInt16)))
    (hcnt : st.readCnt.toNat ≤ 5) :
    (readsOf (samplingRun p inputs st).2).length ≤
      6 * (st.n.toNat - st.i) - st.readCnt.toNat := by
  refine samplingRun_induct (p := p) (motive := fun _ st _ events => st.readCnt.toNat ≤ 5 →
    (readsOf events).length ≤ 6 * (st.n.toNat - st.i) - st.readCnt.toNat)
    (fun _ _ => Nat.zero_le _) (fun _ _ _ _ => Nat.zero_le _) (fun _ _ _ _ _ _ => Nat.zero_le _)
    (fun _ _ _ _ _ _ _ => Nat.zero_le _) ?_ ?_ ?_ inputs st hcnt
  · intro _ st t hi _ hle
    simp
    omega
  · intro _ st t r events hi hcnt ih hle
    have hnext := readCnt_add_one hle
    have ih := ih (readCnt_le hcnt)
    simp only [hnext] at ih
    simp
    omega
  · intro _ st t words r events hi ih hle
    have ih : (readsOf events).length ≤ 6 * (st.n.toNat - (st.i + 1)) - 0 := ih (Nat.zero_le 5)
    simp
    omega

/-- A run that stops with its input has read in every turn. -/
theorem samplingRun_again (inputs : List (Timeval × Option (List UInt16))) {st' : Sampling}
    (h : (samplingRun p inputs st).1 = .again st') :
    (readsOf (samplingRun p inputs st).2).length = inputs.length := by
  refine samplingRun_induct (p := p) (motive := fun k _ r events => r = .again st' →
    (readsOf events).length = k) (fun _ _ => rfl) (fun _ _ _ => nofun) (fun _ _ _ _ _ => nofun)
    (fun _ _ _ _ _ _ => nofun) (fun _ _ _ _ _ => nofun) ?_ ?_ inputs st h
  · intro k st t r events _ _ ih hr
    simp [ih hr]
  · intro k st t words r events _ ih hr
    simp [ih hr]

/-- Samples are stored in their half of the array. -/
theorem samplingRun_stores (inputs : List (Timeval × Option (List UInt16))) :
    ∀ ab ∈ storesOf (samplingRun p inputs st).2, ab.1 < 250 ∧ ab.2 = ab.1 + 250 := by
  refine samplingRun_induct (p := p) (motive := fun _ _ _ events =>
    ∀ ab ∈ storesOf events, ab.1 < 250 ∧ ab.2 = ab.1 + 250) (fun _ => nofun) (fun _ _ _ => nofun)
    (fun _ _ _ _ _ => nofun) (fun _ _ _ _ _ _ => nofun) (fun _ _ _ _ _ => nofun) ?_ ?_ inputs st
  · intro _ st t r events _ _ ih
    exact ih
  · intro _ st t words r events _ ih
    simp only [storesOf_clock, storesOf_read, storesOf_store, List.forall_mem_cons]
    exact ⟨⟨Nat.mod_lt _ (by decide), trivial⟩, ih⟩

/-- The six reads before failed, those of `read_cnt` among them. -/
def SixFailed (readCnt : UInt8) (events : List SampleEvent) : Prop :=
  List.replicate 6 none <:+ List.replicate readCnt.toNat none ++ readsOf events

/-- The deadline was past, with `i` samples and those stored since. -/
def PastDeadline (p : SamplingParams) (i : Nat) (events : List SampleEvent) : Prop :=
  (∃ t, events.getLast? = some (.clock t) ∧ t.later p.synT1 = true) ∧
    i + (storesOf events).length < p.m.toNat / 2

/-- **The loop gives up** after six failures in a row, or at the deadline. -/
theorem samplingRun_returned (inputs : List (Timeval × Option (List UInt16)))
    (hcnt : st.readCnt.toNat ≤ 5) (h : (samplingRun p inputs st).1 = .returned) :
    SixFailed st.readCnt (samplingRun p inputs st).2 ∨
      PastDeadline p st.i (samplingRun p inputs st).2 := by
  refine samplingRun_induct (p := p) (motive := fun _ st r events => st.readCnt.toNat ≤ 5 →
    r = .returned → SixFailed st.readCnt events ∨ PastDeadline p st.i events)
    (fun _ _ => nofun) (fun _ _ _ _ => nofun) (fun _ _ _ _ _ _ => nofun) ?_ ?_ ?_ ?_
    inputs st hcnt h
  · -- the deadline is past with too few samples
    intro _ st t hi ht hm _ _
    have hin : (UInt16.ofNat st.i).toNat = st.i := by
      rw [UInt16.toNat_ofNat']
      exact Nat.mod_eq_of_lt (Nat.lt_trans hi st.n.toNat_lt)
    exact .inr ⟨⟨t, rfl, ht⟩, by simpa [hin] using hm⟩
  · -- the count stood at five: this failure is the sixth
    intro _ st t hi hgt hle _
    have hnext := readCnt_add_one hle
    have hfive : st.readCnt.toNat = 5 := by
      have hgt : 5 < (st.readCnt + 1).toNat := UInt8.lt_iff_toNat_lt.1 hgt
      omega
    refine .inl ?_
    rw [SixFailed, hfive]
    exact List.suffix_refl _
  · intro _ st t r events hi hcnt ih hle hr
    have hnext := readCnt_add_one hle
    refine (ih (readCnt_le hcnt) hr).imp (fun hsix => ?_) fun hlate => ?_
    · -- the failure that is counted is a read now
      have hmove : List.replicate (st.readCnt.toNat + 1) none ++ readsOf events =
          List.replicate st.readCnt.toNat none ++ none :: readsOf events := by
        rw [List.replicate_succ', List.append_assoc]
        rfl
      rwa [SixFailed, hnext, hmove] at hsix
    · obtain ⟨⟨t', hlast, ht'⟩, hm⟩ := hlate
      exact ⟨⟨t', by simp [List.getLast?_cons, hlast], ht'⟩, hm⟩
  · intro _ st t words r events hi ih hle hr
    refine (ih (Nat.zero_le 5) hr).imp (fun hsix => ?_) fun hlate => ?_
    · -- six failures behind the sample are six failures of the run
      have hreads : List.replicate 6 none <:+ readsOf events := hsix
      exact hreads.trans ⟨List.replicate st.readCnt.toNat none ++ [some words], by simp⟩
    · obtain ⟨⟨t', hlast, ht'⟩, hm⟩ := hlate
      refine ⟨⟨t', by simp [List.getLast?_cons, hlast], ht'⟩, ?_⟩
      have hi' : (st.measured p words).i = st.i + 1 := rfl
      simp only [storesOf_clock, storesOf_read, storesOf_store, List.length_cons]
      omega

end Bounds

/-! ### From the message on -/

section Start

variable {byZero : Option UInt16} {info : SynInfo} {now : Timeval} {p : SamplingParams}
  {st : Sampling}

theorem cappedPoints_toNat (points : UInt16) :
    (cappedPoints points).toNat = min points.toNat 250 := by
  unfold cappedPoints
  split
  · rename_i hgt
    have hgt : 250 < points.toNat := UInt16.lt_iff_toNat_lt.1 hgt
    exact (Nat.min_eq_right (Nat.le_of_lt hgt)).symm
  · rename_i hle
    have hle : points.toNat ≤ 250 := UInt16.le_iff_toNat_le.1 (UInt16.not_lt.1 hle)
    exact (Nat.min_eq_left hle).symm

theorem cappedPoints_eq_zero {points : UInt16} : cappedPoints points = 0 ↔ points = 0 := by
  rw [← UInt16.toNat_inj, cappedPoints_toNat, ← UInt16.toNat_inj]
  exact Nat.min_eq_zero_iff.trans (or_iff_left (by decide))

/-- Where the division by 0 stops the program, the loop is reached with the messages that are
accepted and ask for points. -/
theorem samplingStart_isSome_iff : (samplingStart none info now).isSome ↔ info.Accepted := by
  rw [SynInfo.Accepted, ← UInt16.not_lt, ← UInt16.not_lt]
  by_cases hlow : info.cycleTime < 1000
  · simp [samplingStart, hlow]
  · by_cases hhigh : info.cycleTime > 10000
    · simp [samplingStart, hlow, hhigh]
    · by_cases hpoints : info.samplePoints = 0
      · have hm : cappedPoints 0 = 0 := rfl
        simp [samplingStart, hlow, hhigh, hpoints, hm]
      · have hm := mt cappedPoints_eq_zero.1 hpoints
        simp [samplingStart, hlow, hhigh, hpoints, hm]

theorem samplingStart_eq (h : samplingStart byZero info now = some (p, st)) :
    p.m = cappedPoints info.samplePoints ∧ st.i = 0 ∧ st.readCnt = 0 := by
  unfold samplingStart at h
  split at h
  · exact absurd h (by simp)
  · split at h
    · exact absurd h (by simp)
    · obtain ⟨stepTm, -, h⟩ := Option.map_eq_some_iff.1 h
      split at h
      · cases h
        exact ⟨rfl, rfl, rfl⟩
      · cases h
        exact ⟨rfl, rfl, rfl⟩

/-- **The sampling loop is bounded**: in its reads, in its turns and in what it stores, and it gives
up for one of two reasons only. -/
theorem samplingLoop_bounded (h : samplingStart byZero info now = some (p, st))
    (inputs : List (Timeval × Option (List UInt16))) :
    let r := samplingRun p inputs st
    (readsOf r.2).length ≤ 6 * st.n.toNat ∧
      (6 * st.n.toNat < inputs.length → ∀ st', r.1 ≠ .again st') ∧
      (∀ ab ∈ storesOf r.2, ab.1 < 250 ∧ ab.2 = ab.1 + 250) ∧
      p.m.toNat = min info.samplePoints.toNat 250 ∧
      (r.1 = .returned → List.replicate 6 none <:+ readsOf r.2 ∨
        (∃ t, r.2.getLast? = some (.clock t) ∧ t.later p.synT1 = true) ∧
          (storesOf r.2).length < p.m.toNat / 2) := by
  obtain ⟨hm, hi, hcnt⟩ := samplingStart_eq h
  have hle : st.readCnt.toNat ≤ 5 := hcnt ▸ Nat.zero_le 5
  have hreads := samplingRun_reads (p := p) inputs hle
  rw [hi, hcnt] at hreads
  refine ⟨hreads, fun hlong st' hagain => ?_, samplingRun_stores inputs,
    hm ▸ cappedPoints_toNat _, fun hret => ?_⟩
  · have hlen := samplingRun_again inputs hagain
    exact absurd (hlen ▸ hreads) (Nat.not_le.2 hlong)
  · refine (samplingRun_returned inputs hle hret).imp (fun hsix => ?_) fun hlate => ?_
    · rw [SixFailed, hcnt] at hsix
      exact hsix
    · rw [PastDeadline, hi, Nat.zero_add] at hlate
      exact hlate

end Start

/-- Two reads that fail, three samples, and then silence, after a message for 200 points. -/
def thenSilence : List (Timeval × Option (List UInt16)) :=
  List.replicate 2 (⟨28, 0⟩, none) ++ List.replicate 3 (⟨28, 0⟩, some [0, 1, 0, 2]) ++
    List.replicate 7 (⟨29, 0⟩, none)

theorem silence_bounded :
    let r := samplingRun ⟨200, 180, ⟨63, 0⟩⟩ thenSilence ⟨⟨0, .filled, ⟨27, 0⟩⟩, 200, 0⟩
    (readsOf r.2).length ≤ 6 * 200 ∧ (∀ ab ∈ storesOf r.2, ab.1 < 250 ∧ ab.2 = ab.1 + 250) ∧
      (storesOf r.2).length = 3 ∧ List.replicate 6 none <:+ readsOf r.2 := by
  obtain ⟨hreads, -, hstores, -, hret⟩ := samplingLoop_bounded
    (show samplingStart none ⟨900, 3600, 200⟩ ⟨0, 0⟩ = some _ from rfl) thenSilence
  refine ⟨hreads, hstores, by decide +kernel, (hret rfl).resolve_right ?_⟩
  -- the run ends with a read, before any deadline
  rintro ⟨⟨t, hlast, -⟩, -⟩
  cases hlast

/-! ### The loop as it is run -/

/-- The loop as a program of the thread, for so many turns. -/
def samplingProgram (c : Nat) (p : SamplingParams) : Nat → Sampling → Serial Looped
  | 0, st => pure (.again st)
  | turns + 1, st =>
      if st.i < st.n.toNat then do
        let synT3 ← gettimeofday
        if synT3.later p.synT1 then pure (st.late p)
        else
          match ← modbusReadRegisters c 0x43 4 with
          | none =>
              match st.failed with
              | .again st => samplingProgram c p turns st
              | r => pure r
          | some words => do
              let st := st.measured p words
              timerSleep st.synT0
              samplingProgram c p turns st
      else pure (.left st.n st.toSamples)

/-- What `sampleRun` makes of the result of `sampleLoop`. -/
def loopedOf (p : SamplingParams) (n : UInt16) : Option (Bool × Samples) → Looped
  | none => .returned
  | some (late, samples) =>
      let n := if late then UInt16.ofNat samples.i else n
      if late ∧ n.toNat < p.m.toNat / 2 then .returned else .left n samples

section Program

variable {c : Nat} {p : SamplingParams}

/-- `sampleLoop` behind the reads for a sample, with `k` more samples to come. -/
def afterSample (c : Nat) (p : SamplingParams) (k : Nat) (st : Samples) :
    Sample → Serial (Option (Bool × Samples))
  | .failed => pure none
  | .late => pure (some (true, st))
  | .measured words => do
      let st := st.store p.stepTm.toNat words
      timerSleep st.synT0
      sampleLoop c p.stepTm.toNat p.synT1 k st

/-- `sampleLoop` where some reads for the first sample have failed already. -/
def resumedLoop (c : Nat) (p : SamplingParams) (st : Sampling) : Serial (Option (Bool × Samples)) :=
  match st.n.toNat - st.i with
  | 0 => pure (some (false, st.toSamples))
  | k + 1 => sampleOnce c p.synT1 (6 - st.readCnt.toNat) >>= afterSample c p k st.toSamples

theorem resumedLoop_of_le {st : Sampling} (h : st.n.toNat ≤ st.i) :
    resumedLoop c p st = pure (some (false, st.toSamples)) := by
  rw [resumedLoop, Nat.sub_eq_zero_of_le h]

theorem resumedLoop_of_lt {st : Sampling} {k tries : Nat} (hk : st.n.toNat - st.i = k + 1)
    (htries : 6 - st.readCnt.toNat = tries) :
    resumedLoop c p st = sampleOnce c p.synT1 tries >>= afterSample c p k st.toSamples := by
  rw [resumedLoop, hk, htries]

theorem resumedLoop_of_fresh {st : Sampling} (h : st.readCnt = 0) :
    resumedLoop c p st =
      sampleLoop c p.stepTm.toNat p.synT1 (st.n.toNat - st.i) st.toSamples := by
  cases hk : st.n.toNat - st.i with
  | zero => rw [resumedLoop, hk, sampleLoop]
  | succ k =>
      rw [resumedLoop_of_lt hk (show 6 - st.readCnt.toNat = 6 from h ▸ rfl), sampleLoop]
      refine congrArg _ (funext fun o => ?_)
      cases o <;> rfl

/-- The deadline is past: `sampleRun` looks at the samples in the same way. -/
theorem late_eq_loopedOf (st : Sampling) :
    st.late p = loopedOf p st.n (some (true, st.toSamples)) := by
  simp [Sampling.late, loopedOf]

theorem samplingProgram_eq_resumed {turns : Nat} {st : Sampling} (hcnt : st.readCnt.toNat ≤ 5)
    (hturns : 6 * (st.n.toNat - st.i) - st.readCnt.toNat < turns) :
    samplingProgram c p turns st =
      resumedLoop c p st >>= fun o => pure (loopedOf p st.n o) := by
  -- each read lowers `6 * (n - i) - readCnt`: a failure by one, a sample by what is left of six
  induction turns generalizing st with
  | zero => exact absurd hturns (Nat.not_lt_zero _)
  | succ turns ih =>
      rcases Nat.lt_or_ge st.i st.n.toNat with hi | hi
      · obtain ⟨k, hk⟩ : ∃ k, st.n.toNat - st.i = k + 1 := ⟨st.n.toNat - st.i - 1, by omega⟩
        obtain ⟨tries, htries⟩ : ∃ tries, 6 - st.readCnt.toNat = tries + 1 :=
          ⟨5 - st.readCnt.toNat, by omega⟩
        have hnext := readCnt_add_one hcnt
        rw [resumedLoop_of_lt hk htries, samplingProgram, if_pos hi, sampleOnce]
        simp only [Prog.bind_assoc]
        refine congrArg _ (funext fun t => ?_)
        by_cases ht : t.later p.synT1 = true
        · rw [if_pos ht, if_pos ht, late_eq_loopedOf]
          rfl
        · rw [if_neg ht, if_neg ht]
          simp only [Prog.bind_assoc]
          refine congrArg _ (funext fun o => ?_)
          cases o with
          | none =>
              by_cases hlast : st.readCnt + 1 > 5
              · -- the sixth failure in a row
                have hgt : 5 < (st.readCnt + 1).toNat := UInt8.lt_iff_toNat_lt.1 hlast
                obtain rfl : tries = 0 := by omega
                simp only [Sampling.failed_of_gt hlast]
                rfl
              · have hresumed := @resumedLoop_of_lt c p { st with readCnt := st.readCnt + 1 } k
                  tries hk (show 6 - (st.readCnt + 1).toNat = tries by omega)
                simp only [Sampling.failed_of_not_gt hlast]
                rw [ih (readCnt_le hlast) (by dsimp only; omega), hresumed, Prog.bind_assoc]
          | some words =>
              dsimp only
              rw [Prog.pure_bind, afterSample, Prog.bind_assoc]
              refine congrArg _ (funext fun _ => ?_)
              have hrest : (st.measured p words).n.toNat - (st.measured p words).i = k := by
                show st.n.toNat - (st.i + 1) = k
                omega
              have hfresh := @resumedLoop_of_fresh c p (st.measured p words) rfl
              rw [ih (show (st.measured p words).readCnt.toNat ≤ 5 from Nat.zero_le 5)
                (by rw [hrest]; omega), hfresh, hrest]
              rfl
      · rw [resumedLoop_of_le hi, samplingProgram, if_neg (Nat.not_lt.2 hi)]
        simp [loopedOf]

/-- **The loop of the thread is this loop**: with a turn for every read that can be made, and one
more, it is over as `sampleLoop` is. -/
theorem samplingProgram_eq {turns : Nat} {st : Sampling} (hi : st.i = 0) (hcnt : st.readCnt = 0)
    (hturns : 6 * st.n.toNat < turns) :
    samplingProgram c p turns st =
      sampleLoop c p.stepTm.toNat p.synT1 st.n.toNat st.toSamples >>= fun o =>
        pure (loopedOf p st.n o) := by
  have hle : st.readCnt.toNat ≤ 5 := hcnt ▸ Nat.zero_le 5
  rw [samplingProgram_eq_resumed hle (by omega), resumedLoop_of_fresh hcnt, hi, Nat.sub_zero]

/-- The thread's loop ends as a run does, whatever its operations are answered. -/
theorem samplingProgram_ensures {σ ι : Type} {exec : Exec Act Act.Out σ ι}
    {allowed : σ → Act → ι → Prop} {turns : Nat} {st : Sampling} {s : σ} :
    Ensures exec allowed (fun _ _ => True) (fun r _ => ∃ inputs, (samplingRun p inputs st).1 = r)
      (samplingProgram c p turns st) s := by
  have hread : ∀ s, Ensures exec allowed (fun _ _ => True) (fun _ _ => True)
      (modbusReadRegisters c 0x43 4) s := fun s =>
    ensures_of_steps (fun _ _ _ _ _ _ _ => trivial) trivial
  -- the inputs of the run are what the operations were answered
  induction turns generalizing st s with
  | zero => exact ⟨[], rfl⟩
  | succ turns ih =>
      rw [samplingProgram]
      rcases Nat.lt_or_ge st.i st.n.toNat with hi | hi
      · rw [if_pos hi]
        refine ensures_op_bind.2 ⟨trivial, fun _ (t : Timeval) s _ _ => ?_⟩
        by_cases ht : t.later p.synT1 = true
        · rw [if_pos ht]
          exact ⟨[(t, none)], samplingRun_late hi ht⟩
        · rw [if_neg ht]
          refine (hread s).bind fun o s _ => ?_
          cases o with
          | none =>
              have hturn := samplingTurn_failed hi ht
              by_cases hlast : st.readCnt + 1 > 5
              · rw [Sampling.failed_of_gt hlast] at hturn ⊢
                exact ⟨[(t, none)], congrArg Prod.fst (samplingRun_of_returned hturn)⟩
              · rw [Sampling.failed_of_not_gt hlast] at hturn ⊢
                refine ih.mono fun r _ hr => ?_
                obtain ⟨inputs, rfl⟩ := hr
                exact ⟨(t, none) :: inputs, by rw [samplingRun_of_again hturn]⟩
          | some words =>
              refine ensures_op_bind.2 ⟨trivial, fun _ _ s _ _ => ih.mono fun r _ hr => ?_⟩
              obtain ⟨inputs, rfl⟩ := hr
              exact ⟨(t, some words) :: inputs,
                by rw [samplingRun_of_again (samplingTurn_measured hi ht)]⟩
      · rw [if_neg (Nat.not_lt.2 hi)]
        exact ⟨[(⟨0, 0⟩, none)], congrArg Prod.fst (samplingRun_of_left (samplingTurn_done hi))⟩

end Program

end RtuA118
