import RtuA118.Serial.Transaction

/-!
# RtuA118.Serial.Electrical

`wired_electrical_param.c`: the synchronised sampling run `time_handle_fun`, and
`deal_wired_electrical`, which reads the wired electrical module.

The sampling loop is written as two: `sampleOnce` is what the loop does between
two samples (each failed read goes round again, the sixth gives up), `sampleLoop`
goes on to the next sample. The divisors that are not constants are operations of
their own, `Act.divide`.
-/

namespace RtuA118

open Program Serial

/-! ### The samples -/

/-- `syn_data`: 500 words, the current and then the power, and whatever lies around
them. -/
abbrev SynData := Int → UInt16

/-- The `short` at an index. -/
def shortAt (d : SynData) (k : Int) : Int := (d k).toInt16.toInt

/-- `memset(syn_data, 0xFFFF, 250 * 4)`. -/
def SynData.filled : SynData := fun _ => 0xFFFF

/-- `buff_backward(&syn_data[base], len)`, from `i` words on. -/
def backwardLoop (base : Int) : Nat → SynData → SynData
  | 0, d => d
  | i + 1, d => backwardLoop base i (Function.update d (base + i + 1) (d (base + i)))

/-- `buff_backward`. -/
def buffBackward (base : Int) (len : UInt16) (d : SynData) : SynData :=
  if len ≤ 1 then d else backwardLoop base len.toNat d

/-- `(a + b) / 2` of two `short`s, as a `short`. -/
def meanOf (a b : Int) : UInt16 := UInt16.ofInt ((a + b).tdiv 2)

/-- One turn of the loop that inserts a point at `move_pos`. -/
def insertPoint (m movePos : UInt16) (d : SynData) : SynData :=
  let p : Int := movePos.toNat % 250
  let len := UInt16.ofInt ((m.toNat : Int) - movePos.toNat)
  let d := buffBackward p len d
  let d := buffBackward (p + 250) len d
  if (movePos.toNat : Int) = m.toNat - 1 then
    let d := Function.update d p (meanOf (shortAt d (p - 1)) (shortAt d 0))
    Function.update d (p + 250) (meanOf (shortAt d (p + 250 - 1)) (shortAt d 250))
  else
    let d := Function.update d p (meanOf (shortAt d (p - 1)) (shortAt d (p + 1)))
    Function.update d (p + 250) (meanOf (shortAt d (p + 250 - 1)) (shortAt d (p + 250 + 1)))

/-- The loop that inserts as many points. -/
def insertPoints (m insertStep : UInt16) : Nat → UInt16 → SynData → SynData
  | 0, _, d => d
  | k + 1, movePos, d =>
    insertPoints m insertStep k (movePos + insertStep) (insertPoint m movePos d)

/-- What lies behind the samples is written to the registers. -/
def SynData.words (d : SynData) : List UInt16 := (List.range 500).map fun k => d k

/-! ### The sampling loop -/

/-- How a sample was missed, or measured. -/
inductive Sample where
  /-- Six reads in a row failed. -/
  | failed
  /-- The deadline is past. -/
  | late
  | measured (words : List UInt16)

/-- The reads for one sample, with so many failures to go. -/
def sampleOnce (c : Nat) (synT1 : Timeval) : Nat → Serial Sample
  | 0 => pure .failed
  | tries + 1 => do
    let synT3 ← gettimeofday
    if synT3.later synT1 then pure .late
    else
      match ← modbusReadRegisters c 0x43 4 with
      | none => sampleOnce c synT1 tries
      | some words => pure (.measured words)

/-- The samples so far, and the time the next one is due. -/
structure Samples where
  i : Nat
  data : SynData
  synT0 : Timeval

/-- A sample stored, and its successor's time. -/
def Samples.store (stepTm : Nat) (words : List UInt16) (st : Samples) : Samples where
  i := st.i + 1
  data := Function.update
    (Function.update st.data ((st.i % 250 : Nat) : Int) (words.getD 0 0))
    (((st.i % 250 : Nat) : Int) + 250) (words.getD 3 0)
  synT0 := st.synT0.plus (stepTm / 1000) (stepTm % 1000 * 1000)

/-- The loop over the samples that are left: `none` if it gave up, and whether the
deadline ended it. -/
def sampleLoop (c stepTm : Nat) (synT1 : Timeval) : Nat → Samples → Serial (Option (Bool × Samples))
  | 0, st => pure (some (false, st))
  | k + 1, st => do
    match ← sampleOnce c synT1 6 with
    | .failed => pure none
    | .late => pure (some (true, st))
    | .measured words => do
      let st := st.store stepTm words
      timerSleep st.synT0
      sampleLoop c stepTm synT1 k st

/-! ### `time_handle_fun` -/

/-- The number of samples and the milliseconds between them, as first computed. -/
structure Plan where
  n : UInt16
  stepTm : UInt16

/-- `n`, `m` and `step_tm`: at least 100 ms from one sample to the next. -/
def samplePlan : Serial (UInt16 × Plan) := do
  let n ← syn 2
  let m : UInt16 := if n > 250 then 250 else n
  let cycle ← syn 1
  let stepTm : UInt16 := .ofInt (← divide (cycle.toNat * 10) m.toNat)
  if stepTm < 100 then do
    let cycle ← syn 1
    pure (m, ⟨.ofNat (cycle.toNat * 10 / 100), 100⟩)
  else pure (m, ⟨m, stepTm⟩)

/-- `n` of the `m` samples wanted: the missing ones are inserted. -/
def fillSamples (n m : UInt16) (data : SynData) : Serial SynData := do
  if n < m then do
    let insertStep : UInt16 := .ofInt (← divide m.toNat (m.toNat - n.toNat))
    pure (insertPoints m insertStep (m.toNat - n.toNat) (insertStep - 1) data)
  else pure data

/-- What is done with the samples. -/
def storeSamples (electricalWellNo n m : UInt16) (data : SynData) : Serial Int := do
  let data ← fillSamples n m data
  storeWords electricalWellNo.toNat elecCycleCurrentAddr data.words
  saveTime electricalWellNo.toNat elecCycleTimeAddr
  pure 0

/-- The run once its parameters are accepted, `synT0` being the time it starts. -/
def sampleRun (c : Nat) (electricalWellNo : UInt16) (synT0 : Timeval) : Serial Int := do
  let (m, plan) ← samplePlan
  timerSleep synT0
  let cycle ← syn 1
  let synT1 := synT0.plus (cycle.toNat / 100) (cycle.toNat * 10 % 1000 * 1000)
  touch c
  match ← sampleLoop c plan.stepTm.toNat synT1 plan.n.toNat ⟨0, .filled, synT0⟩ with
  | none => pure (-1)
  | some (late, st) =>
    let n := if late then UInt16.ofNat st.i else plan.n
    if late ∧ n.toNat < m.toNat / 2 then pure (-1)
    else storeSamples electricalWellNo n m st.data

/-- `time_handle_fun`. -/
def timeHandleFun (c : Nat) : Serial Int := do
  let electricalWellNo ← ownWellNo elecWellNoAddr
  setSlave c electricalWellNo.toNat
  let synT0 ← gettimeofday
  let cycle ← syn 1
  let first ← syn 0
  let tmFirst : UInt16 := .ofNat (cycle.toNat / 2 + first.toNat)
  let synT0 := synT0.plus (tmFirst.toNat / 100) (tmFirst.toNat * 10 % 1000 * 1000)
  if (← syn 1) < 1000 then pure (-1)
  else if (← syn 1) > 10000 then pure (-1)
  else sampleRun c electricalWellNo synT0

/-! ### The run with its samples -/

/-- What a run has measured: `n` of `m` samples, in order, each as it was read. -/
structure Measurement where
  electricalWellNo : UInt16
  n : UInt16
  m : UInt16
  samples : List (List UInt16)

/-- The sampling loop, with the samples themselves. -/
def measureLoop (c stepTm : Nat) (synT1 : Timeval) :
    Nat → Timeval → Serial (Option (Bool × List (List UInt16)))
  | 0, _ => pure (some (false, []))
  | k + 1, synT0 => do
    match ← sampleOnce c synT1 6 with
    | .failed => pure none
    | .late => pure (some (true, []))
    | .measured words => do
      let synT0 := synT0.plus (stepTm / 1000) (stepTm % 1000 * 1000)
      timerSleep synT0
      let rest ← measureLoop c stepTm synT1 k synT0
      pure (rest.map fun r => (r.1, words :: r.2))

/-- `sampleRun`, up to the stores. -/
def measureRun (c : Nat) (electricalWellNo : UInt16) (synT0 : Timeval) :
    Serial (Option Measurement) := do
  let (m, plan) ← samplePlan
  timerSleep synT0
  let cycle ← syn 1
  let synT1 := synT0.plus (cycle.toNat / 100) (cycle.toNat * 10 % 1000 * 1000)
  touch c
  match ← measureLoop c plan.stepTm.toNat synT1 plan.n.toNat synT0 with
  | none => pure none
  | some (late, samples) =>
    let n := if late then UInt16.ofNat samples.length else plan.n
    if late ∧ n.toNat < m.toNat / 2 then pure none
    else pure (some ⟨electricalWellNo, n, m, samples⟩)

/-- `timeHandleFun`, up to the stores. -/
def measure (c : Nat) : Serial (Option Measurement) := do
  let electricalWellNo ← ownWellNo elecWellNoAddr
  setSlave c electricalWellNo.toNat
  let synT0 ← gettimeofday
  let cycle ← syn 1
  let first ← syn 0
  let tmFirst : UInt16 := .ofNat (cycle.toNat / 2 + first.toNat)
  let synT0 := synT0.plus (tmFirst.toNat / 100) (tmFirst.toNat * 10 % 1000 * 1000)
  if (← syn 1) < 1000 then pure none
  else if (← syn 1) > 10000 then pure none
  else measureRun c electricalWellNo synT0

/-! ### `deal_wired_electrical` -/

/-- `ELEC_VOLTAGE_RATE_ADDR`, `ELEC_CURRENT_RATE_ADDR`. -/
@[simp] def elecVoltageRateAddr : Nat := 1797
@[simp] def elecCurrentRateAddr : Nat := 1798

/-- What the module was asked for: its scale, the ratios it was given, the energy
and the parameters. -/
structure Measured where
  scale : List UInt16
  upp : UInt16
  ipp : UInt16
  quantity : List UInt16
  param : List UInt16

/-- The four transactions, each tried three times. -/
def measureElectrical (c : Nat) (electricalWellNo : UInt16) : Serial (Option Measured) := do
  match ← Prog.attempts (modbusReadRegisters c 0x02 2) 3 with
  | none => pure none
  | some scale => do
    let upp ← fetchWord 1 electricalWellNo.toNat elecVoltageRateAddr
    let ipp ← fetchWord 40 electricalWellNo.toNat elecCurrentRateAddr
    let upp := if upp > 5000 then 1 else upp
    let ipp := if ipp > 1000 then 1 else ipp
    match ← Prog.attempts (modbusWriteRegisters c 0x05 [upp, ipp]) 3 with
    | none => pure none
    | some () =>
      match ← Prog.attempts (modbusReadRegisters c 0x0C 4) 3 with
      | none => pure none
      | some quantity =>
        match ← Prog.attempts (modbusReadRegisters c 0x40 10) 3 with
        | none => pure none
        | some param => pure (some ⟨scale, upp, ipp, quantity, param⟩)

/-- The results stored into the well's registers. -/
def storeElectrical (h : Host) (c : Nat) (electricalWellNo : UInt16) (r : Measured) :
    Serial Int := do
  stampSample (electricalWellNo.toNat - 1) electricalParameterNo
  storeWords electricalWellNo.toNat elecCurrentRtdataAddr
    (h.electricalResult (r.scale.getD 0 0) (r.scale.getD 1 0 / 10) r.upp r.ipp r.quantity r.param)
  saveTime electricalWellNo.toNat elecTimeAddr
  clearMac ((← getSlave c) - 1)
  pure r.param.length

/-- `deal_wired_electrical`. -/
def dealWiredElectrical (h : Host) (c : Nat) : Serial Int := do
  let electricalWellNo ← ownWellNo elecWellNoAddr
  setSlave c electricalWellNo.toNat
  if (← getSlave c) ≥ 9 then pure (-1)
  else if (← getSlave c) < 1 then pure (-1)
  else
    match ← measureElectrical c electricalWellNo with
    | none => pure (-1)
    | some r => storeElectrical h c electricalWellNo r

/-! ### What the two do -/

section Within

variable {c : Nat}

theorem sampleOnce_sampling {synT1 : Timeval} (tries : Nat) :
    (sampleOnce c synT1 tries).Only (Act.Sampling c) := by
  induction tries with
  | zero => trivial
  | succ tries ih =>
      refine Prog.Only.bind (Prog.only_op.2 trivial) fun synT3 => ?_
      split
      · trivial
      · refine Prog.Only.bind (modbusReadRegisters_onWire.mono fun _ => Act.OnWire.sampling) ?_
        intro o
        cases o with
        | none => exact ih
        | some words => trivial

theorem sampleLoop_sampling {stepTm : Nat} {synT1 : Timeval} (k : Nat) (st : Samples) :
    (sampleLoop c stepTm synT1 k st).Only (Act.Sampling c) := by
  induction k generalizing st with
  | zero => trivial
  | succ k ih =>
      refine Prog.Only.bind (sampleOnce_sampling 6) fun o => ?_
      cases o with
      | failed => trivial
      | late => trivial
      | measured words => exact Prog.Only.bind (Prog.only_op.2 trivial) fun _ => ih _

theorem fillSamples_steady {n m : UInt16} {data : SynData} :
    (fillSamples n m data).Only (Act.OrSyn (Act.Steady c)) := by
  unfold fillSamples
  split
  · exact Prog.Only.bind (Prog.only_op.2 (.inr (.inr ⟨_, _, rfl⟩))) fun _ => trivial
  · trivial

theorem storeSamples_steady {w n m : UInt16} {data : SynData} :
    (storeSamples w n m data).Only (Act.OrSyn (Act.Steady c)) :=
  fillSamples_steady.bind fun _ => by simp [Act.OrSyn, Act.Steady, Act.Within]

/-- The first look at the parameters of the run. -/
theorem samplePlan_steady : samplePlan.Only (Act.OrSyn (Act.Steady c)) := by
  simp [samplePlan, Act.OrSyn, Act.Steady, Act.Within]

theorem sampleRun_steady {w : UInt16} {synT0 : Timeval} :
    (sampleRun c w synT0).Only (Act.OrSyn (Act.Steady c)) := by
  refine samplePlan_steady.bind fun plan => ?_
  have hloop : ∀ synT1, (sampleLoop c plan.2.stepTm.toNat synT1 plan.2.n.toNat
      ⟨0, .filled, synT0⟩).Only (Act.OrSyn (Act.Steady c)) := fun _ =>
    (sampleLoop_sampling _ _).mono fun _ h => .inl h.steady
  simp only [Prog.op_bind, Prog.only_call]
  refine ⟨.inl trivial, fun _ => ⟨.inr (.inl ⟨_, rfl⟩), fun _ => ⟨.inl rfl, fun _ => ?_⟩⟩⟩
  refine (hloop _).bind fun o => ?_
  cases o with
  | none => trivial
  | some p =>
      rw [Prog.only_ite]
      exact ⟨fun _ => trivial, fun _ => storeSamples_steady⟩

theorem timeHandleFun_withinRun : (timeHandleFun c).Only (Act.WithinRun c) := by
  have hrun : ∀ {w synT0}, (sampleRun c w synT0).Only (Act.WithinRun c) :=
    sampleRun_steady.mono fun _ => .mono fun _ => Act.Steady.within
  simp [timeHandleFun, hrun]
  simp [Act.OrSyn, Act.Within]

theorem measureElectrical_steady {w : UInt16} :
    (measureElectrical c w).Only (Act.Steady c) := by
  have hread : ∀ addr nb,
      (Prog.attempts (modbusReadRegisters c addr nb) 3).Only (Act.Steady c) := fun _ _ =>
    (modbusReadRegisters_onWire.mono fun _ => Act.OnWire.steady).attempts 3
  refine Prog.Only.bind (hread _ _) fun o => ?_
  cases o with
  | none => trivial
  | some scale =>
      refine Prog.Only.bind (Prog.only_op.2 trivial) fun upp => ?_
      refine Prog.Only.bind (Prog.only_op.2 trivial) fun ipp => ?_
      refine Prog.Only.bind
        ((modbusWriteRegisters_onWire.mono fun _ => Act.OnWire.steady).attempts 3) fun o => ?_
      cases o with
      | none => trivial
      | some _ =>
          refine Prog.Only.bind (hread _ _) fun o => ?_
          cases o with
          | none => trivial
          | some quantity =>
              refine Prog.Only.bind (hread _ _) fun o => ?_
              cases o <;> trivial

theorem storeElectrical_within {h : Host} {w : UInt16} {r : Measured} :
    (storeElectrical h c w r).Only (Act.Within c) := by
  refine Prog.Only.bind (Prog.only_op.2 trivial) fun _ => ?_
  refine Prog.Only.bind (Prog.only_op.2 trivial) fun _ => ?_
  refine Prog.Only.bind (Prog.only_op.2 trivial) fun _ => ?_
  refine Prog.Only.bind (Prog.only_op.2 rfl) fun _ => ?_
  exact Prog.Only.bind (Prog.only_op.2 trivial) fun _ => trivial

theorem dealWiredElectrical_within {h : Host} :
    (dealWiredElectrical h c).Only (Act.Within c) := by
  refine Prog.Only.bind (Prog.only_op.2 trivial) fun w => ?_
  refine Prog.Only.bind (Prog.only_op.2 rfl) fun _ => ?_
  refine Prog.Only.bind (Prog.only_op.2 rfl) fun slave => ?_
  split
  · trivial
  · refine Prog.Only.bind (Prog.only_op.2 rfl) fun slave => ?_
    split
    · trivial
    · refine Prog.Only.bind (measureElectrical_steady.mono fun _ => Act.Steady.within) fun o => ?_
      cases o with
      | none => trivial
      | some r => exact storeElectrical_within

end Within

end RtuA118
