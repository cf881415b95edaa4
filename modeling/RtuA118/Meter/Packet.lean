import RtuA118.Map.Access
import RtuA118.Modbus.Receive

/-!
# RtuA118.Meter.Packet

The packets of the wireless meters and the procedures their decoders call.

A **packet** is a function from an offset to the byte there: the decoders overlay
fixed structures on a buffer whose received length they are not given. Its header
is protocol (0-1), vendor (2-3), sensor type (4-5), group (6), number (7) and data
type (8-9), the two-byte fields high byte first.

A decoder looks at the packet alone to decide what to do, so it is the list of
the **calls** it makes, in order; `MeterCall.run` is what a call does to the unit.
-/

namespace RtuA118

/-! ### Fields -/

def protocolType (p : Nat → UInt8) : Nat := be16 (p 0) (p 1)
def sensorType (p : Nat → UInt8) : Nat := be16 (p 4) (p 5)
def sensorGroup (p : Nat → UInt8) : UInt8 := p 6
def sensorNum (p : Nat → UInt8) : UInt8 := p 7
def dataTyped (p : Nat → UInt8) : Nat := be16 (p 8) (p 9)

/-- `swap_int16` of the `uint16_t` at offset `k`. -/
def swappedAt (p : Nat → UInt8) (k : Nat) : UInt16 := swapInt16 (wordOfBytes (p k) (p (k + 1)))

/-- The `fp32` at offset `k`. -/
def fp32At (p : Nat → UInt8) (k : Nat) : Fp32 := ⟨p k, p (k + 1), p (k + 2), p (k + 3)⟩

/-- A group the unit has a well for. -/
def GroupOk (p : Nat → UInt8) : Prop :=
  0 < (sensorGroup p).toNat ∧ (sensorGroup p).toNat < maxWellNum + 1

instance (p : Nat → UInt8) : Decidable (GroupOk p) := inferInstanceAs (Decidable (_ ∧ _))

/-! ### Sensor types, data types, slots -/

@[simp] def meterTypeWlIntergrationLoad : Nat := 0x0001
@[simp] def meterTypeWlPressure : Nat := 0x0002
@[simp] def meterTypeWlTemperature : Nat := 0x0003
@[simp] def meterTypeWlElectricity : Nat := 0x0004
@[simp] def meterTypeWlIntergrationSpeedTorque : Nat := 0x0009
@[simp] def meterTypeWlFlowMeter : Nat := 0x000A

@[simp] def dataTypeRoutineData : Nat := 0x0000
@[simp] def dataTypeMeterPara : Nat := 0x0010
@[simp] def dataTypeIntergrationLoadDiagram : Nat := 0x0020
@[simp] def dataTypeElectricityDiagram : Nat := 0x0030

@[simp] def dataTypeRtuAckRoutine : UInt16 := 0x0100
@[simp] def dataTypeRtuEquMeterPara : UInt16 := 0x0101
@[simp] def dataTypeRtuEquIntergrationDiagramData : UInt16 := 0x0200
@[simp] def dataTypeRtuAckIntergrationDiagramData : UInt16 := 0x0201
@[simp] def dataTypeRtuAckWlElectricityDiagramData : UInt16 := 0x0211

@[simp] def temperatureNo : Nat := 3
@[simp] def loadNo : Nat := 4
@[simp] def electricalParameterNo : Nat := 5
@[simp] def stlNo : Nat := 6
@[simp] def actuatorNo1 : Nat := 7
@[simp] def actuatorNo2 : Nat := 8
@[simp] def wlFlowMeterNo : Nat := 9

/-! ### Addresses -/

@[simp] def oilPressureSize : Nat := 72
@[simp] def oilPressureRtdataAddr : Nat := 300
@[simp] def oilPressureMeterInfoAddr : Nat := 302
@[simp] def oilPressureIntervalAddr : Nat := 322
@[simp] def oilPressureTimeAddr : Nat := 323
@[simp] def oilPressureMeterParaAddr : Nat := 329
@[simp] def temperatureRtdataAddr : Nat := 516
@[simp] def temperatureMeterInfoAddr : Nat := 518
@[simp] def temperatureIntervalAddr : Nat := 538
@[simp] def temperatureTimeAddr : Nat := 539
@[simp] def temperatureMeterParaAddr : Nat := 545
@[simp] def stlSpeedRtdataAddr : Nat := 588
@[simp] def stlMeterInfoAddr : Nat := 594
@[simp] def stlIntervalAddr : Nat := 614
@[simp] def stlTimeAddr : Nat := 615
@[simp] def stlMeterParaAddr : Nat := 621
@[simp] def loadLoadRtdataAddr : Nat := 664
@[simp] def loadMeterInfoAddr : Nat := 668
@[simp] def loadIntervalAddr : Nat := 688
@[simp] def loadSetPointsAddr : Nat := 690
@[simp] def loadSamplePointsAddr : Nat := 691
@[simp] def loadSampleModeAddr : Nat := 692
@[simp] def loadTravelCntAddr : Nat := 693
@[simp] def loadCyclePosAddr : Nat := 697
@[simp] def loadCycleLoadAddr : Nat := 947
@[simp] def loadCycleTimeAddr : Nat := 1203
@[simp] def loadMeterParaAddr : Nat := 1209
@[simp] def elecCurrentRtdataAddr : Nat := 1252
@[simp] def elecActivePowerRtdataAddr : Nat := 1264
@[simp] def elecReactivePowerRtdataAddr : Nat := 1266
@[simp] def elecActivePowerRateRtdataAddr : Nat := 1268
@[simp] def elecReactivePowerRateRtdataAddr : Nat := 1270
@[simp] def elecPowerFactorRtdataAddr : Nat := 1274
@[simp] def elecCycleCurrentAddr : Nat := 1276
@[simp] def elecCyclePowerAddr : Nat := 1526
@[simp] def elecMeterInfoAddr : Nat := 1776
@[simp] def elecIntervalAddr : Nat := 1796
@[simp] def elecTimeAddr : Nat := 1799
@[simp] def elecCycleTimeAddr : Nat := 1805
@[simp] def elecMeterParaAddr : Nat := 1811
@[simp] def actuatorIntervalAddr : Nat := 1870
@[simp] def actuatorTotalFlowAddr : Nat := 1875
@[simp] def actuatorFlowRateAddr : Nat := 1877
@[simp] def actuator2TotalFlowAddr : Nat := 1890

/-! ### What the processor adds -/

/-- Floating-point results, and bytes of memory that are read but never written:
the `moc` field of the load request, and what lies from the address of a decoder's
own pointer variable on. -/
structure Machine where
  fadd : Fp32 → Fp32 → Fp32
  /-- `(float)(6000.0 / n)`. -/
  strokesOf : UInt16 → Fp32
  /-- `(float)(n * 0.001)`. -/
  travelOf : UInt16 → Fp32
  moc : Nat → UInt8
  behindPointer : Nat → UInt8

/-- A processor whose unwritten memory is zero. -/
def zeroMachine : Machine where
  fadd := fun f _ => f
  strokesOf := fun _ => ⟨0, 0, 0, 0⟩
  travelOf := fun _ => ⟨0, 0, 0, 0⟩
  moc := fun _ => 0
  behindPointer := fun _ => 0

/-- Where a packet comes from: `p_mac` (ten bytes), and the group and number in its
header. -/
structure Origin where
  mac : Nat → UInt8
  group : UInt8
  num : UInt8

/-! ### The calls -/

/-- A call a decoder makes. -/
inductive MeterCall where
  /-- The answer to a routine report: the interval, or a request for parameters. -/
  | answer (slot intervalAddr : Nat) (cur : UInt16)
  /-- The same for the electrical meter, whose address is kept. -/
  | answerElec
  /-- The answer of the load meter: a request for a diagram or for parameters. -/
  | answerLoad
  /-- `time(&meter_sample_time[group - 1][slot])`. -/
  | sampleTime (slot : Nat)
  /-- `zigbee_write_registers` of the words into the group's well. -/
  | store (addr : Nat) (words : List UInt16)
  /-- `save_time_register`. -/
  | saveTime (addr : Nat)
  /-- The acknowledgement of a diagram packet. -/
  | ack (dataType : UInt16) (index : UInt8)
  /-- The message that starts a synchronous electrical diagram. -/
  | loadElecSysn (synchronTime cycleTime samplePoints : UInt16)
  deriving DecidableEq, Repr

/-- `packet_a11_rtu_header`. -/
def packetA11RtuHeader (group num : UInt8) (dataType : UInt16) : List UInt8 :=
  [0x00, 0x00, 0x00, 0x06, 0x1F, 0x10, group, num, hiByte dataType, loByte dataType]

/-- `swap_int16` of a word, as bytes of a packet. -/
def swappedBytes (v : UInt16) : List UInt8 := [hiByte v, loByte v]

theorem be16_bytes (v : UInt16) : be16 (hiByte v) (loByte v) = v.toNat := by
  have hlt := v.toNat_lt
  simp only [be16, toNat_hiByte, toNat_loByte]
  omega

/-- `calc_sum_check` over the bytes behind the length field. -/
def calcSumCheck (bytes : List UInt8) : UInt8 := 0xFF - sum8 bytes

/-- `zigbee_send_packet`. -/
def zigbeeSendPacket (mac : Nat → UInt8) (data : List UInt8) (s : Rtu) : Rtu :=
  if data.length > 80 then s
  else
    let len := 20 + data.length
    let body := [0x11, 0x00] ++ (List.range 8).map mac ++ [0xFF, 0xFE] ++
      [0xE8, 0xE8, 0x00, 0x11, 0x18, 0x57, 0x00, 0x60] ++ data
    { s with radio := s.radio ++
        [[0x7E, UInt8.ofNat (len / 256), UInt8.ofNat (len % 256)] ++ body ++ [calcSumCheck body]] }

/-- One register read into a word that holds `cur`. -/
def readWord (env : Platform) (s : Rtu) (cur : UInt16) (w addr : Nat) : UInt16 :=
  match zigbeeReadRegisters env s (fun _ => cur) 1 w addr with
  | some (v :: _) => v
  | _ => cur

theorem ReadsAs.readWord {env : Platform} {s : Rtu} {w addr : Nat} {v : UInt16}
    (h : ReadsAs env s w addr [v]) (cur : UInt16) : readWord env s cur w addr = v := by
  have hv := h fun _ => cur
  rw [List.length_singleton, Int.natCast_one] at hv
  rw [RtuA118.readWord, hv]

/-- `judge_eq_meter_para`. The difference of the times is compared as an unsigned
number. -/
def judgeEqMeterPara (w slot : Nat) (s : Rtu) : Int × Rtu :=
  if w ≥ maxWellNum ∨ w < 1 then (-1, s)
  else if slot ≥ 10 then (-1, s)
  else
    let d := s.time - s.equMeterParaTime (w - 1) slot
    if d < 0 ∨ 86400 < d then
      (0, { s with equMeterParaTime := fun i k =>
        if i = w - 1 ∧ k = slot then s.time else s.equMeterParaTime i k })
    else (-1, s)

/-- `if (v > limit) v = other`. -/
def capped (limit other v : UInt16) : UInt16 := if v > limit then other else v

/-- The answer to a routine report; `keep` is done before an interval is sent. -/
def answerRoutine (env : Platform) (o : Origin) (slot intervalAddr : Nat) (cur : UInt16)
    (keep : Rtu → Rtu) (s : Rtu) : Rtu :=
  match judgeEqMeterPara o.group.toNat slot s with
  | (-1, s) =>
    let t := capped 1800 1800 (readWord env s cur o.group.toNat intervalAddr)
    zigbeeSendPacket o.mac
      (packetA11RtuHeader o.group o.num dataTypeRtuAckRoutine ++ swappedBytes t) (keep s)
  | (_, s) => zigbeeSendPacket o.mac (packetA11RtuHeader o.group o.num dataTypeRtuEquMeterPara) s

/-- `memcpy` of the electrical meter's address. -/
def keepMac (o : Origin) (s : Rtu) : Rtu :=
  { s with elecParamMeterMac := fun i k =>
      if i = o.group.toNat - 1 ∧ k < 10 then o.mac k else s.elecParamMeterMac i k }

/-- The answer of the load decoder to a routine report. -/
def answerLoadRoutine (env : Platform) (mc : Machine) (o : Origin) (s : Rtu) : Rtu :=
  match judgeEqMeterPara o.group.toNat loadNo s with
  | (-1, s) =>
    let mode := readWord env s 0 o.group.toNat loadSampleModeAddr
    let mode := if mode ≠ 0x01 ∧ mode ≠ 0x10 then 0x00 else mode
    let points := capped 250 200 (readWord env s mode o.group.toNat loadSetPointsAddr)
    let interval := capped 60 10 (readWord env s points o.group.toNat loadIntervalAddr)
    zigbeeSendPacket o.mac
      (packetA11RtuHeader o.group o.num dataTypeRtuEquIntergrationDiagramData ++
        [loByte mode] ++ swappedBytes points ++ [0, 0] ++ [0, 0] ++ [loByte interval] ++
        (List.range 9).map mc.moc) s
  | (_, s) => zigbeeSendPacket o.mac (packetA11RtuHeader o.group o.num dataTypeRtuEquMeterPara) s

/-- `zigbee_write_registers` of a list of words. -/
def writeWords (env : Platform) (w addr : Nat) (words : List UInt16) (s : Rtu) : Rtu :=
  (zigbeeWriteRegisters env (fun k => words.getD k 0) words.length w addr s).2

/-- The words of `save_time_register`. -/
def timeWords (env : Platform) (s : Rtu) : List UInt16 :=
  let tm := env.localtime s.time
  [tm.tmYear + 1900, tm.tmMon + 1, tm.tmMday, tm.tmHour, tm.tmMin, tm.tmSec].map
    fun v => int16ToBcd (UInt16.ofInt v)

/-- `judge_elec_param_wired_wireless`. -/
def judgeElecParamWiredWireless (mac : Nat → UInt8) : Bool :=
  (List.range 10).any fun k => mac k != 0

/-- What a call does. -/
def MeterCall.run (env : Platform) (mc : Machine) (o : Origin) (s : Rtu) : MeterCall → Rtu
  | .answer slot intervalAddr cur => answerRoutine env o slot intervalAddr cur id s
  | .answerElec =>
    answerRoutine env o electricalParameterNo elecIntervalAddr 0 (keepMac o) s
  | .answerLoad => answerLoadRoutine env mc o s
  | .sampleTime slot =>
    { s with meterSampleTime := fun i k =>
        if i = o.group.toNat - 1 ∧ k = slot then s.time else s.meterSampleTime i k }
  | .store addr words => writeWords env o.group.toNat addr words s
  | .saveTime addr => writeWords env o.group.toNat addr (timeWords env s) s
  | .ack dataType index =>
    zigbeeSendPacket o.mac (packetA11RtuHeader o.group o.num dataType ++ [index]) s
  | .loadElecSysn synchronTime cycleTime samplePoints =>
    let q : Queue :=
      if judgeElecParamWiredWireless (s.elecParamMeterMac (o.group.toNat - 1)) then .zigbee
      else .rtuClient
    s.post q (.loadElecSysn synchronTime cycleTime samplePoints (UInt16.ofNat o.group.toNat))

/-- The calls in order. -/
def runCalls (env : Platform) (mc : Machine) (o : Origin) (cs : List MeterCall) (s : Rtu) : Rtu :=
  cs.foldl (MeterCall.run env mc o) s

theorem runCalls_cons {env : Platform} {mc : Machine} {o : Origin} {c : MeterCall}
    {cs : List MeterCall} {s : Rtu} :
    runCalls env mc o (c :: cs) s = runCalls env mc o cs (c.run env mc o s) := rfl

theorem runCalls_append {env : Platform} {mc : Machine} {o : Origin} {cs ds : List MeterCall}
    {s : Rtu} : runCalls env mc o (cs ++ ds) s = runCalls env mc o ds (runCalls env mc o cs s) := by
  unfold runCalls
  rw [List.foldl_append]

end RtuA118
