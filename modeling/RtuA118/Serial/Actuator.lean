import RtuA118.Serial.Transaction

/-!
# RtuA118.Serial.Actuator

`wired_actuator.c`: the two wired actuators. `deal_wired_actuator1` and
`deal_wired_actuator2` are one definition over the registers of the actuator
(`ActuatorRegs`) and differ in nothing else.
-/

namespace RtuA118

open Program Serial

/-- What tells one actuator from the other: its address on the line, its slot in
`meter_sample_time`, and its registers. -/
structure ActuatorRegs where
  slave : Int
  slot : Nat
  injecPerdayAddr : Nat
  adjustAccurentAddr : Nat
  autoFlagAddr : Nat
  totalFlowAddr : Nat
  flowRateAddr : Nat
  flowerStateAddr : Nat
  angleAddr : Nat
  adjustCntAddr : Nat
  adjustModeAddr : Nat
  flowerModelAddr : Nat
  softwareVersionAddr : Nat
  hardwareVersionAddr : Nat

/-- The registers from `ACTUATOR_BASE_ADDR` or `ACTUATOR2_BASE_ADDR` on. -/
def ActuatorRegs.at (slave : Int) (slot base : Nat) : ActuatorRegs where
  slave := slave
  slot := slot
  injecPerdayAddr := base + 1
  adjustAccurentAddr := base + 3
  autoFlagAddr := base + 4
  totalFlowAddr := base + 5
  flowRateAddr := base + 7
  flowerStateAddr := base + 9
  angleAddr := base + 10
  adjustCntAddr := base + 11
  adjustModeAddr := base + 12
  flowerModelAddr := base + 13
  softwareVersionAddr := base + 14
  hardwareVersionAddr := base + 15

def actuator1 : ActuatorRegs := .at 1 actuatorNo1 1870
def actuator2 : ActuatorRegs := .at 2 actuatorNo2 1885

/-! ### The two requests -/

/-- `rtu_set_actuator_param`. Only the two actuators have a parameter frame. -/
def rtuSetActuatorParam (h : Host) (c : Nat) : Serial Unit := do
  let slave ← getSlave c
  let actuatorWellNo ← fetchWord h.stack 1 actuatorWellNoAddr
  let w := actuatorWellNo.toNat
  let fill (a : ActuatorRegs) : Serial Unit := do
    let injec ← fetchWords [h.stack, h.stack] w a.injecPerdayAddr
    let accuracy ← fetchWord h.stack w a.adjustAccurentAddr
    let autoFlag ← fetchWord accuracy w a.autoFlagAddr
    let _ ← send c (.actuatorParam injec accuracy autoFlag)
  if slave = 1 then fill actuator1
  else if slave = 2 then fill actuator2
  else pure ()

/-- `rtu_equ_actuator_data`. -/
def rtuEquActuatorData (c : Nat) : Serial Unit := do
  let now ← time
  if (← getSlave c) > 2 then pure ()
  else do
    let _ ← send c (.actuatorData now)

/-! ### The two replies -/

/-- A good `st_actuator_para_ack_rtu`. -/
def paramAcked (slave : Int) (f : List UInt8) : Bool :=
  f.length == 10 && f.getD 5 0 == 1 && decide (slave = (f.getD 1 0).toNat) && f.getD 2 0 == 2

/-- A good `st_actuator_ack_rtu`. -/
def dataAcked (slave : Int) (f : List UInt8) : Bool :=
  f.length == 39 && f.getD 2 0 == 1 && be16 (f.getD 3 0) (f.getD 4 0) == 0x1e &&
    decide (slave = (f.getD 1 0).toNat)

/-- The number in `n` bytes from offset `k` on, high byte first. -/
def beNat (f : List UInt8) (k n : Nat) : Nat :=
  ((f.drop k).take n).foldl (fun t b => 256 * t + b.toNat) 0

/-- A byte as a register word. -/
def byteWord (f : List UInt8) (k : Nat) : UInt16 := wordOfBytes (f.getD k 0) 0

/-- The fields of the reply, stored into the well's registers. -/
def storeActuator (h : Host) (a : ActuatorRegs) (w : Nat) (f : List UInt8) : Serial Unit := do
  storeWords w a.totalFlowAddr (h.thousandth (beNat f 5 8))
  storeWords w a.flowRateAddr (h.thousandth (beNat f 13 4))
  storeWords w a.flowerStateAddr [byteWord f 18]
  storeWords w a.angleAddr [byteWord f 20]
  storeWords w a.adjustCntAddr [wordOfBytes (f.getD 26 0) (f.getD 25 0)]
  storeWords w a.adjustModeAddr [byteWord f 27]
  storeWords w a.flowerModelAddr [byteWord f 19]
  storeWords w a.softwareVersionAddr [byteWord f 23]
  storeWords w a.hardwareVersionAddr [byteWord f 24]

/-! ### `deal_wired_actuator` -/

/-- One attempt at giving the actuator its parameters. -/
def setParam (h : Host) (a : ActuatorRegs) (c : Nat) : Serial (Option Unit) := do
  putSlave c a.slave
  rtuSetActuatorParam h c
  match ← modbusReceiveActuator c with
  | none => pure none
  | some f =>
    let slave ← getSlave c
    pure (if paramAcked slave f then some () else none)

/-- One attempt at reading the actuator. -/
def readData (h : Host) (a : ActuatorRegs) (c : Nat) (actuatorWellNo : UInt16) :
    Serial (Option Unit) := do
  putSlave c a.slave
  rtuEquActuatorData c
  match ← modbusReceiveActuator c with
  | none => pure none
  | some f =>
    let slave ← getSlave c
    if dataAcked slave f then do
      stampSample (actuatorWellNo.toNat - 1) a.slot
      storeActuator h a actuatorWellNo.toNat f
      pure (some ())
    else pure none

/-- `deal_wired_actuator1`, `deal_wired_actuator2`. -/
def dealOne (h : Host) (a : ActuatorRegs) (c : Nat) : Serial Int := do
  let actuatorWellNo ← ownWellNo actuatorWellNoAddr
  match ← Prog.attempts (setParam h a c) 3 with
  | none => pure (-1)
  | some () =>
    match ← Prog.attempts (readData h a c actuatorWellNo) 3 with
    | none => pure (-1)
    | some () => pure 0

def dealWiredActuator1 (h : Host) (c : Nat) : Serial Int := dealOne h actuator1 c
def dealWiredActuator2 (h : Host) (c : Nat) : Serial Int := dealOne h actuator2 c

/-- `deal_wired_actuator`. -/
def dealWiredActuator (h : Host) (c : Nat) : Serial Int := do
  let rc0 ← dealWiredActuator1 h c
  let rc1 ← dealWiredActuator2 h c
  pure (if rc0 = -1 ∧ rc1 = -1 then -1 else 0)

/-! ### What it does -/

section Within

variable {h : Host} {a : ActuatorRegs} {c : Nat}

theorem rtuSetActuatorParam_steady : (rtuSetActuatorParam h c).Only (Act.Steady c) := by
  refine Prog.Only.bind (Prog.only_op.2 rfl) fun slave => ?_
  refine Prog.Only.bind (Prog.only_op.2 trivial) fun w => ?_
  have hfill : ∀ a : ActuatorRegs, Prog.Only (Act.Steady c) (do
      let injec ← fetchWords [h.stack, h.stack] w.toNat a.injecPerdayAddr
      let accuracy ← fetchWord h.stack w.toNat a.adjustAccurentAddr
      let autoFlag ← fetchWord accuracy w.toNat a.autoFlagAddr
      let _ ← send c (.actuatorParam injec accuracy autoFlag) : Serial Unit) := by
    intro a
    refine Prog.Only.bind (Prog.only_op.2 trivial) fun injec => ?_
    refine Prog.Only.bind (Prog.only_op.2 trivial) fun accuracy => ?_
    refine Prog.Only.bind (Prog.only_op.2 trivial) fun autoFlag => ?_
    exact Prog.Only.bind (Prog.only_op.2 rfl) fun _ => trivial
  split
  · exact hfill actuator1
  · split
    · exact hfill actuator2
    · trivial

theorem rtuEquActuatorData_steady : (rtuEquActuatorData c).Only (Act.Steady c) := by
  refine Prog.Only.bind (Prog.only_op.2 trivial) fun now => ?_
  refine Prog.Only.bind (Prog.only_op.2 rfl) fun slave => ?_
  split
  · trivial
  · exact Prog.Only.bind (Prog.only_op.2 rfl) fun _ => trivial

theorem modbusReceiveActuator_steady : (modbusReceiveActuator c).Only (Act.Steady c) :=
  modbusReceiveActuator_onWire.mono fun _ => Act.OnWire.steady

theorem setParam_within : (setParam h a c).Only (Act.Within c) := by
  refine Prog.Only.bind (Prog.only_op.2 rfl) fun _ => ?_
  refine Prog.Only.bind (rtuSetActuatorParam_steady.mono fun _ => Act.Steady.within) fun _ => ?_
  refine Prog.Only.bind (modbusReceiveActuator_steady.mono fun _ => Act.Steady.within) fun o => ?_
  cases o with
  | none => trivial
  | some f => exact Prog.Only.bind (Prog.only_op.2 rfl) fun _ => trivial

theorem storeActuator_steady {w : Nat} {f : List UInt8} :
    (storeActuator h a w f).Only (Act.Steady c) := by
  simp [storeActuator, Act.Steady, Act.Within]

theorem readData_within {w : UInt16} : (readData h a c w).Only (Act.Within c) := by
  refine Prog.Only.bind (Prog.only_op.2 rfl) fun _ => ?_
  refine Prog.Only.bind (rtuEquActuatorData_steady.mono fun _ => Act.Steady.within) fun _ => ?_
  refine Prog.Only.bind (modbusReceiveActuator_steady.mono fun _ => Act.Steady.within) fun o => ?_
  cases o with
  | none => trivial
  | some f =>
      refine Prog.Only.bind (Prog.only_op.2 rfl) fun slave => ?_
      split
      · refine Prog.Only.bind (Prog.only_op.2 trivial) fun _ => ?_
        exact Prog.Only.bind (storeActuator_steady.mono fun _ => Act.Steady.within) fun _ => trivial
      · trivial

theorem dealOne_within : (dealOne h a c).Only (Act.Within c) := by
  refine Prog.Only.bind (Prog.only_op.2 trivial) fun w => ?_
  refine Prog.Only.bind (setParam_within.attempts 3) fun o => ?_
  cases o with
  | none => trivial
  | some _ =>
      refine Prog.Only.bind (readData_within.attempts 3) fun o => ?_
      cases o <;> trivial

theorem dealWiredActuator_within : (dealWiredActuator h c).Only (Act.Within c) := by
  refine Prog.Only.bind dealOne_within fun rc0 => ?_
  exact Prog.Only.bind dealOne_within fun rc1 => trivial

end Within

end RtuA118
