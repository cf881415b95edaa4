import RtuA118.Meter.Packet

/-!
# RtuA118.Meter.Analysis

The six decoders of wireless packets, and `analysis_zigbee_rcv_data`, which runs
all of them on every frame.

Each decoder is its return code and the calls it makes. `-1` says the packet is
not for it; the caller looks at none of the codes.
-/

namespace RtuA118

/-! ### Shared shapes -/

/-- The words of `save_meter_info`. -/
def meterInfoWords (p : Nat → UInt8) : List UInt16 :=
  [swappedAt p 2, swappedAt p 4, UInt16.ofNat (p 6).toNat, UInt16.ofNat (p 7).toNat,
    UInt16.ofNat (p 10).toNat, UInt16.ofNat (p 11).toNat, swappedAt p 12, swappedAt p 14, 0, 0]

/-- `save_meter_info`. -/
def saveMeterInfo (p : Nat → UInt8) (addr : Nat) : MeterCall := .store addr (meterInfoWords p)

/-- A reading as it is stored. -/
def storedFloat (f : Fp32) : Fp32 := swapStorFloatSeq (swapRcvFloatSeq f)

/-- The `float` readings at the offsets, stored one after the other. -/
def storeReadings (p : Nat → UInt8) (addr : Nat) (offs : List Nat) : MeterCall :=
  .store addr (offs.flatMap fun k => (storedFloat (fp32At p k)).words)

/-- The words of `(u16 *) &sensor_param`, one for each word of `st_meter_param`. -/
def paramWords (mc : Machine) : List UInt16 :=
  (List.range 43).map fun k => wordOfBytes (mc.behindPointer (2 * k)) (mc.behindPointer (2 * k + 1))

/-- The store of a parameter packet: the address of the pointer variable is passed,
not the pointer. -/
def saveParam (mc : Machine) (addr : Nat) : MeterCall := .store addr (paramWords mc)

/-- The thirty words of a diagram's follow-up packet. -/
def diagramWords (p : Nat → UInt8) : List UInt16 :=
  (List.range 30).map fun k => swappedAt p (12 + 2 * k)

/-! ### The decoders -/

/-- `analysis_pressure`. -/
def analysisPressure (mc : Machine) (p : Nat → UInt8) : Int × List MeterCall :=
  let n := (sensorNum p).toNat
  if sensorType p ≠ meterTypeWlPressure ∨ protocolType p ≠ 0 then (-1, [])
  else if dataTyped p = dataTypeRoutineData then
    if ¬ GroupOk p then (0, [])
    else if n = 0 ∨ n > 3 then (0, [])
    else
      (1, [.answer (n - 1) (oilPressureIntervalAddr + (n - 1) * oilPressureSize) 10,
        saveMeterInfo p (oilPressureMeterInfoAddr + (n - 1) * oilPressureSize),
        .sampleTime (n - 1),
        storeReadings p (oilPressureRtdataAddr + (n - 1) * oilPressureSize) [16],
        .saveTime (oilPressureTimeAddr + (n - 1) * oilPressureSize)])
  else if dataTyped p = dataTypeMeterPara then
    if ¬ GroupOk p then (0, [])
    else if n = 0 ∨ n > 3 then (0, [])
    else (1, [saveParam mc (oilPressureMeterParaAddr + (n - 1) * oilPressureSize)])
  else (0, [])

/-- `analysis_temperature`: it answers before it looks at group and number. -/
def analysisTemperature (mc : Machine) (p : Nat → UInt8) : Int × List MeterCall :=
  if sensorType p ≠ meterTypeWlTemperature ∨ protocolType p ≠ 0 then (-1, [])
  else if dataTyped p = dataTypeRoutineData then
    let answer := MeterCall.answer temperatureNo temperatureIntervalAddr 10
    if ¬ GroupOk p then (-1, [answer])
    else if sensorNum p ≠ 1 then (-1, [answer])
    else
      (0, [answer, .sampleTime temperatureNo, saveMeterInfo p temperatureMeterInfoAddr,
        storeReadings p temperatureRtdataAddr [16], .saveTime temperatureTimeAddr])
  else if dataTyped p = dataTypeMeterPara then
    if ¬ GroupOk p then (-1, []) else (0, [saveParam mc temperatureMeterParaAddr])
  else (-1, [])

/-- `analysis_torque_speed_load`: the packet has torque, load, speed; the registers
speed, torque, load. -/
def analysisTorqueSpeedLoad (mc : Machine) (p : Nat → UInt8) : Int × List MeterCall :=
  if sensorType p ≠ meterTypeWlIntergrationSpeedTorque ∨ protocolType p ≠ 0 then (-1, [])
  else if dataTyped p = dataTypeRoutineData then
    let answer := MeterCall.answer stlNo stlIntervalAddr 10
    if ¬ GroupOk p then (-1, [answer])
    else if sensorNum p ≠ 1 then (-1, [answer])
    else
      (0, [answer, .sampleTime stlNo, saveMeterInfo p stlMeterInfoAddr,
        storeReadings p stlSpeedRtdataAddr [24, 16, 20], .saveTime stlTimeAddr])
  else if dataTyped p = dataTypeMeterPara then
    if ¬ GroupOk p then (-1, []) else (0, [saveParam mc stlMeterParaAddr])
  else (-1, [])

/-- `analysis_flow_meter`. Its interval and its registers are the actuator's. -/
def analysisFlowMeter (p : Nat → UInt8) : Int × List MeterCall :=
  let n := (sensorNum p).toNat
  if sensorType p ≠ meterTypeWlFlowMeter ∨ protocolType p ≠ 0 then (-1, [])
  else if dataTyped p = dataTypeRoutineData then
    let answer := MeterCall.answer wlFlowMeterNo actuatorIntervalAddr 10
    if ¬ GroupOk p then (-1, [answer])
    else if n ≠ 1 ∧ n ≠ 2 then (-1, [answer])
    else
      (0, [answer, .sampleTime wlFlowMeterNo,
        storeReadings p (actuatorTotalFlowAddr + 15 * (n - 1)) [16],
        storeReadings p (actuatorFlowRateAddr + 15 * (n - 1)) [20]])
  else if dataTyped p = dataTypeMeterPara then
    if ¬ GroupOk p then (-1, []) else (0, [])
  else (-1, [])

/-- `analysis_load`. The packet has acceleration, load; the registers load,
acceleration. Follow-up packets carry positions in tenths. -/
def analysisLoad (mc : Machine) (p : Nat → UInt8) : Int × List MeterCall :=
  let i := (p 10).toNat
  if sensorType p ≠ meterTypeWlIntergrationLoad ∨ protocolType p ≠ 0 then (-1, [])
  else if dataTyped p = dataTypeRoutineData then
    if ¬ GroupOk p then (0, [])
    else if sensorNum p ≠ 1 then (0, [])
    else
      (1, [.answerLoad, .sampleTime loadNo, saveMeterInfo p loadMeterInfoAddr,
        storeReadings p loadLoadRtdataAddr [20, 16]])
  else if dataTyped p = dataTypeMeterPara ∨ dataTyped p = 0x0100 then
    if ¬ GroupOk p then (0, [])
    else if sensorNum p ≠ 1 then (0, [])
    else (1, [saveParam mc loadMeterParaAddr])
  else if dataTyped p = dataTypeIntergrationLoadDiagram ∧ i = 0 then
    if ¬ GroupOk p then (0, [])
    else if sensorNum p ≠ 1 then (0, [])
    else
      let cycleTime := swappedAt p 22
      (1, [.loadElecSysn (swappedAt p 14) cycleTime (swappedAt p 18),
        .store loadSamplePointsAddr [swappedAt p 18],
        .store loadTravelCntAddr ((swapStorFloatSeq (mc.strokesOf cycleTime)).words ++
          (swapStorFloatSeq (mc.travelOf (swappedAt p 20))).words),
        .ack dataTypeRtuAckIntergrationDiagramData (p 10)])
  else if dataTyped p = dataTypeIntergrationLoadDiagram ∧ i > 0 ∧ i < 15 then
    (1, [.store (loadCyclePosAddr + (i - 1) * 15) (((diagramWords p).take 15).map (· / 10)),
      .store (loadCycleLoadAddr + (i - 1) * 15) ((diagramWords p).drop 15),
      .ack dataTypeRtuAckIntergrationDiagramData (p 10)] ++
      if i = 14 then [.saveTime loadCycleTimeAddr] else [])
  else (0, [])

/-- `analysis_electrical_param`. The last reading is added to the one before in the
order of bytes each of them then has, and is itself stored as received. -/
def analysisElectricalParam (mc : Machine) (p : Nat → UInt8) : Int × List MeterCall :=
  let i := (p 10).toNat
  if sensorType p ≠ meterTypeWlElectricity ∨ protocolType p ≠ 0 then (-1, [])
  else if dataTyped p = dataTypeRoutineData then
    if ¬ GroupOk p then (0, [])
    else if sensorNum p ≠ 1 then (0, [])
    else
      let reserve := swapRcvFloatSeq (fp32At p 56)
      (1, [.answerElec, .sampleTime electricalParameterNo, saveMeterInfo p elecMeterInfoAddr,
        storeReadings p elecCurrentRtdataAddr [16, 20, 24, 28, 32, 36],
        storeReadings p elecPowerFactorRtdataAddr [40],
        storeReadings p elecActivePowerRateRtdataAddr [44],
        storeReadings p elecReactivePowerRateRtdataAddr [48],
        .store elecActivePowerRtdataAddr (mc.fadd (storedFloat (fp32At p 52)) reserve).words,
        .store elecReactivePowerRtdataAddr reserve.words,
        .saveTime elecTimeAddr])
  else if dataTyped p = dataTypeMeterPara then
    if ¬ GroupOk p then (0, [])
    else if sensorNum p ≠ 1 then (0, [])
    else (1, [saveParam mc elecMeterParaAddr])
  else if dataTyped p = dataTypeElectricityDiagram ∧ i = 0 then
    if ¬ GroupOk p then (0, [])
    else if sensorNum p ≠ 1 then (0, [])
    else (1, [.ack dataTypeRtuAckWlElectricityDiagramData (p 10)])
  else if dataTyped p = dataTypeElectricityDiagram ∧ i > 0 ∧ i < 15 then
    (1, [.store (elecCycleCurrentAddr + (i - 1) * 15) ((diagramWords p).take 15),
      .store (elecCyclePowerAddr + (i - 1) * 15) ((diagramWords p).drop 15),
      .ack dataTypeRtuAckWlElectricityDiagramData (p 10)] ++
      if i = 14 then [.saveTime elecCycleTimeAddr] else [])
  else (0, [])

/-! ### A frame -/

/-- The packet in a received frame. -/
def packetOf (q : Nat → UInt8) : Nat → UInt8 := fun k => q (21 + k)

/-- Where it comes from. -/
def originOf (q : Nat → UInt8) : Origin where
  mac := fun k => q (4 + k)
  group := sensorGroup (packetOf q)
  num := sensorNum (packetOf q)

/-- The calls of all decoders on a packet. What the diagram decoders write back
into the buffer lies behind the fields the later decoders look at. -/
def packetCalls (mc : Machine) (p : Nat → UInt8) : List MeterCall :=
  (analysisPressure mc p).2 ++ (analysisTemperature mc p).2 ++ (analysisTorqueSpeedLoad mc p).2 ++
    (analysisFlowMeter p).2 ++ (analysisLoad mc p).2 ++ (analysisElectricalParam mc p).2

/-- `ZIGBEE_RCV_DATA_FRAMID`. -/
def zigbeeRcvDataFramid : UInt8 := 0x91

/-- `analysis_zigbee_rcv_data`. -/
def analysisZigbeeRcvData (env : Platform) (mc : Machine) (q : Nat → UInt8) (s : Rtu) : Int × Rtu :=
  if q 3 ≠ zigbeeRcvDataFramid then (-1, s)
  else (0, runCalls env mc (originOf q) (packetCalls mc (packetOf q)) s)

end RtuA118
