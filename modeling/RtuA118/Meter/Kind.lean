import RtuA118.Meter.Calls

/-!
# RtuA118.Meter.Kind

**What a packet is** to the unit. The six decoders test the header in orders of their
own; `kindOf` puts the outcome of these tests into one value, and `packetCalls_kind`
says that a packet's calls follow from it. Nothing after this module looks into a
decoder again.
-/

namespace RtuA118

/-! ### Kinds -/

/-- The meters, with the number the unit knows them by where there are several. -/
inductive Meter where
  | pressure (n : Nat)
  | temperature
  | torqueSpeedLoad
  | flowMeter (n : Nat)
  | load
  | electricalParam
  deriving DecidableEq, Repr

/-- What a packet is taken for. -/
inductive PacketKind where
  | routine (m : Meter)
  /-- A routine packet whose sender is answered and not known. -/
  | answerOnly (slot intervalAddr : Nat)
  | para (addr : Nat)
  | loadFirst
  | loadDiagram (i : Nat)
  | electricalFirst
  | electricalDiagram (i : Nat)
  deriving DecidableEq, Repr

def pressureKind (p : Nat → UInt8) : Option PacketKind :=
  let n := (sensorNum p).toNat
  if dataTyped p = dataTypeRoutineData then
    if ¬ GroupOk p then none
    else if n = 0 ∨ n > 3 then none
    else some (.routine (.pressure n))
  else if dataTyped p = dataTypeMeterPara then
    if ¬ GroupOk p then none
    else if n = 0 ∨ n > 3 then none
    else some (.para (oilPressureMeterParaAddr + (n - 1) * oilPressureSize))
  else none

def temperatureKind (p : Nat → UInt8) : Option PacketKind :=
  if dataTyped p = dataTypeRoutineData then
    if ¬ GroupOk p then some (.answerOnly temperatureNo temperatureIntervalAddr)
    else if sensorNum p ≠ 1 then some (.answerOnly temperatureNo temperatureIntervalAddr)
    else some (.routine .temperature)
  else if dataTyped p = dataTypeMeterPara then
    if ¬ GroupOk p then none else some (.para temperatureMeterParaAddr)
  else none

def torqueSpeedLoadKind (p : Nat → UInt8) : Option PacketKind :=
  if dataTyped p = dataTypeRoutineData then
    if ¬ GroupOk p then some (.answerOnly stlNo stlIntervalAddr)
    else if sensorNum p ≠ 1 then some (.answerOnly stlNo stlIntervalAddr)
    else some (.routine .torqueSpeedLoad)
  else if dataTyped p = dataTypeMeterPara then
    if ¬ GroupOk p then none else some (.para stlMeterParaAddr)
  else none

def flowMeterKind (p : Nat → UInt8) : Option PacketKind :=
  let n := (sensorNum p).toNat
  if dataTyped p = dataTypeRoutineData then
    if ¬ GroupOk p then some (.answerOnly wlFlowMeterNo actuatorIntervalAddr)
    else if n ≠ 1 ∧ n ≠ 2 then some (.answerOnly wlFlowMeterNo actuatorIntervalAddr)
    else some (.routine (.flowMeter n))
  else none

def loadKind (p : Nat → UInt8) : Option PacketKind :=
  let i := (p 10).toNat
  if dataTyped p = dataTypeRoutineData then
    if ¬ GroupOk p then none
    else if sensorNum p ≠ 1 then none
    else some (.routine .load)
  else if dataTyped p = dataTypeMeterPara ∨ dataTyped p = 0x0100 then
    if ¬ GroupOk p then none
    else if sensorNum p ≠ 1 then none
    else some (.para loadMeterParaAddr)
  else if dataTyped p = dataTypeIntergrationLoadDiagram ∧ i = 0 then
    if ¬ GroupOk p then none
    else if sensorNum p ≠ 1 then none
    else some .loadFirst
  else if dataTyped p = dataTypeIntergrationLoadDiagram ∧ i > 0 ∧ i < 15 then some (.loadDiagram i)
  else none

def electricalParamKind (p : Nat → UInt8) : Option PacketKind :=
  let i := (p 10).toNat
  if dataTyped p = dataTypeRoutineData then
    if ¬ GroupOk p then none
    else if sensorNum p ≠ 1 then none
    else some (.routine .electricalParam)
  else if dataTyped p = dataTypeMeterPara then
    if ¬ GroupOk p then none
    else if sensorNum p ≠ 1 then none
    else some (.para elecMeterParaAddr)
  else if dataTyped p = dataTypeElectricityDiagram ∧ i = 0 then
    if ¬ GroupOk p then none
    else if sensorNum p ≠ 1 then none
    else some .electricalFirst
  else if dataTyped p = dataTypeElectricityDiagram ∧ i > 0 ∧ i < 15 then
    some (.electricalDiagram i)
  else none

/-- What a packet is; `none` where no decoder does anything. -/
def kindOf (p : Nat → UInt8) : Option PacketKind :=
  if protocolType p ≠ 0 then none
  else if sensorType p = meterTypeWlPressure then pressureKind p
  else if sensorType p = meterTypeWlTemperature then temperatureKind p
  else if sensorType p = meterTypeWlIntergrationSpeedTorque then torqueSpeedLoadKind p
  else if sensorType p = meterTypeWlFlowMeter then flowMeterKind p
  else if sensorType p = meterTypeWlIntergrationLoad then loadKind p
  else if sensorType p = meterTypeWlElectricity then electricalParamKind p
  else none

/-! ### Calls of a kind -/

/-- The calls of a routine packet. -/
def Meter.calls (mc : Machine) (p : Nat → UInt8) : Meter → List MeterCall
  | .pressure n =>
    [.answer (n - 1) (oilPressureIntervalAddr + (n - 1) * oilPressureSize) 10,
      saveMeterInfo p (oilPressureMeterInfoAddr + (n - 1) * oilPressureSize),
      .sampleTime (n - 1),
      storeReadings p (oilPressureRtdataAddr + (n - 1) * oilPressureSize) [16],
      .saveTime (oilPressureTimeAddr + (n - 1) * oilPressureSize)]
  | .temperature =>
    [.answer temperatureNo temperatureIntervalAddr 10, .sampleTime temperatureNo,
      saveMeterInfo p temperatureMeterInfoAddr, storeReadings p temperatureRtdataAddr [16],
      .saveTime temperatureTimeAddr]
  | .torqueSpeedLoad =>
    [.answer stlNo stlIntervalAddr 10, .sampleTime stlNo, saveMeterInfo p stlMeterInfoAddr,
      storeReadings p stlSpeedRtdataAddr [24, 16, 20], .saveTime stlTimeAddr]
  | .flowMeter n =>
    [.answer wlFlowMeterNo actuatorIntervalAddr 10, .sampleTime wlFlowMeterNo,
      storeReadings p (actuatorTotalFlowAddr + 15 * (n - 1)) [16],
      storeReadings p (actuatorFlowRateAddr + 15 * (n - 1)) [20]]
  | .load =>
    [.answerLoad, .sampleTime loadNo, saveMeterInfo p loadMeterInfoAddr,
      storeReadings p loadLoadRtdataAddr [20, 16]]
  | .electricalParam =>
    [.answerElec, .sampleTime electricalParameterNo, saveMeterInfo p elecMeterInfoAddr,
      storeReadings p elecCurrentRtdataAddr [16, 20, 24, 28, 32, 36],
      storeReadings p elecPowerFactorRtdataAddr [40],
      storeReadings p elecActivePowerRateRtdataAddr [44],
      storeReadings p elecReactivePowerRateRtdataAddr [48],
      .store elecActivePowerRtdataAddr
        (mc.fadd (storedFloat (fp32At p 52)) (swapRcvFloatSeq (fp32At p 56))).words,
      .store elecReactivePowerRtdataAddr (swapRcvFloatSeq (fp32At p 56)).words,
      .saveTime elecTimeAddr]

/-- The calls of a packet of this kind. -/
def PacketKind.calls (mc : Machine) (p : Nat → UInt8) : PacketKind → List MeterCall
  | .routine m => m.calls mc p
  | .answerOnly slot intervalAddr => [.answer slot intervalAddr 10]
  | .para addr => [saveParam mc addr]
  | .loadFirst =>
    [.loadElecSysn (swappedAt p 14) (swappedAt p 22) (swappedAt p 18),
      .store loadSamplePointsAddr [swappedAt p 18],
      .store loadTravelCntAddr ((swapStorFloatSeq (mc.strokesOf (swappedAt p 22))).words ++
        (swapStorFloatSeq (mc.travelOf (swappedAt p 20))).words),
      .ack dataTypeRtuAckIntergrationDiagramData (p 10)]
  | .loadDiagram i =>
    [.store (loadCyclePosAddr + (i - 1) * 15) (((diagramWords p).take 15).map (· / 10)),
      .store (loadCycleLoadAddr + (i - 1) * 15) ((diagramWords p).drop 15),
      .ack dataTypeRtuAckIntergrationDiagramData (p 10)] ++
      if i = 14 then [.saveTime loadCycleTimeAddr] else []
  | .electricalFirst => [.ack dataTypeRtuAckWlElectricityDiagramData (p 10)]
  | .electricalDiagram i =>
    [.store (elecCycleCurrentAddr + (i - 1) * 15) ((diagramWords p).take 15),
      .store (elecCyclePowerAddr + (i - 1) * 15) ((diagramWords p).drop 15),
      .ack dataTypeRtuAckWlElectricityDiagramData (p 10)] ++
      if i = 14 then [.saveTime elecCycleTimeAddr] else []

/-! ### A packet's calls -/

section Packet

variable {mc : Machine} {p : Nat → UInt8}

@[simp] theorem analysisPressure_skip
    (h : sensorType p ≠ meterTypeWlPressure ∨ protocolType p ≠ 0) :
    analysisPressure mc p = (-1, []) := if_pos h

@[simp] theorem analysisTemperature_skip
    (h : sensorType p ≠ meterTypeWlTemperature ∨ protocolType p ≠ 0) :
    analysisTemperature mc p = (-1, []) := if_pos h

@[simp] theorem analysisTorqueSpeedLoad_skip
    (h : sensorType p ≠ meterTypeWlIntergrationSpeedTorque ∨ protocolType p ≠ 0) :
    analysisTorqueSpeedLoad mc p = (-1, []) := if_pos h

@[simp] theorem analysisFlowMeter_skip
    (h : sensorType p ≠ meterTypeWlFlowMeter ∨ protocolType p ≠ 0) :
    analysisFlowMeter p = (-1, []) := if_pos h

@[simp] theorem analysisLoad_skip
    (h : sensorType p ≠ meterTypeWlIntergrationLoad ∨ protocolType p ≠ 0) :
    analysisLoad mc p = (-1, []) := if_pos h

@[simp] theorem analysisElectricalParam_skip
    (h : sensorType p ≠ meterTypeWlElectricity ∨ protocolType p ≠ 0) :
    analysisElectricalParam mc p = (-1, []) := if_pos h

/-- The calls of a packet by its kind. -/
def kindCalls (mc : Machine) (p : Nat → UInt8) (k : Option PacketKind) : List MeterCall :=
  k.elim [] fun k => k.calls mc p

theorem pressureKind_calls (mc : Machine) (ht : sensorType p = meterTypeWlPressure)
    (hp : protocolType p = 0) :
    (analysisPressure mc p).2 = kindCalls mc p (pressureKind p) := by
  unfold analysisPressure pressureKind
  dsimp only
  rw [if_neg (by simp [ht, hp])]
  split_ifs <;> rfl

theorem temperatureKind_calls (mc : Machine) (ht : sensorType p = meterTypeWlTemperature)
    (hp : protocolType p = 0) :
    (analysisTemperature mc p).2 = kindCalls mc p (temperatureKind p) := by
  unfold analysisTemperature temperatureKind
  dsimp only
  rw [if_neg (by simp [ht, hp])]
  split_ifs <;> rfl

theorem torqueSpeedLoadKind_calls (mc : Machine)
    (ht : sensorType p = meterTypeWlIntergrationSpeedTorque) (hp : protocolType p = 0) :
    (analysisTorqueSpeedLoad mc p).2 = kindCalls mc p (torqueSpeedLoadKind p) := by
  unfold analysisTorqueSpeedLoad torqueSpeedLoadKind
  dsimp only
  rw [if_neg (by simp [ht, hp])]
  split_ifs <;> rfl

theorem flowMeterKind_calls (mc : Machine) (ht : sensorType p = meterTypeWlFlowMeter)
    (hp : protocolType p = 0) :
    (analysisFlowMeter p).2 = kindCalls mc p (flowMeterKind p) := by
  unfold analysisFlowMeter flowMeterKind
  dsimp only
  rw [if_neg (by simp [ht, hp])]
  split_ifs <;> rfl

theorem loadKind_calls (mc : Machine) (ht : sensorType p = meterTypeWlIntergrationLoad)
    (hp : protocolType p = 0) : (analysisLoad mc p).2 = kindCalls mc p (loadKind p) := by
  unfold analysisLoad loadKind
  dsimp only
  rw [if_neg (by simp [ht, hp])]
  -- the clock's store after the last packet is a branch of its own
  split_ifs <;> first
    | rfl
    | simp [kindCalls, PacketKind.calls, *]

theorem electricalParamKind_calls (mc : Machine) (ht : sensorType p = meterTypeWlElectricity)
    (hp : protocolType p = 0) :
    (analysisElectricalParam mc p).2 = kindCalls mc p (electricalParamKind p) := by
  unfold analysisElectricalParam electricalParamKind
  dsimp only
  rw [if_neg (by simp [ht, hp])]
  -- the clock's store after the last packet is a branch of its own
  split_ifs <;> first
    | rfl
    | simp [kindCalls, PacketKind.calls, *]

/-- **A packet's calls are those of its kind**: one decoder at most takes it. -/
theorem packetCalls_kind : packetCalls mc p = kindCalls mc p (kindOf p) := by
  unfold packetCalls kindOf
  by_cases hp : protocolType p = 0
  · rw [if_neg (not_not.2 hp)]
    split_ifs with h1 h2 h3 h4 h5 h6
    · rw [pressureKind_calls mc h1 hp]
      simp [h1]
    · rw [temperatureKind_calls mc h2 hp]
      simp [h2]
    · rw [torqueSpeedLoadKind_calls mc h3 hp]
      simp [h3]
    · rw [flowMeterKind_calls mc h4 hp]
      simp [h4]
    · rw [loadKind_calls mc h5 hp]
      simp [h5]
    · rw [electricalParamKind_calls mc h6 hp]
      simp [h6]
    · rw [analysisPressure_skip (.inl h1), analysisTemperature_skip (.inl h2),
        analysisTorqueSpeedLoad_skip (.inl h3), analysisFlowMeter_skip (.inl h4),
        analysisLoad_skip (.inl h5), analysisElectricalParam_skip (.inl h6)]
      rfl
  · rw [if_pos hp, analysisPressure_skip (.inr hp), analysisTemperature_skip (.inr hp),
      analysisTorqueSpeedLoad_skip (.inr hp), analysisFlowMeter_skip (.inr hp),
      analysisLoad_skip (.inr hp), analysisElectricalParam_skip (.inr hp)]
    rfl

theorem packetCalls_of_kind {k : PacketKind} (h : kindOf p = some k) :
    packetCalls mc p = k.calls mc p := by
  rw [packetCalls_kind, h]
  rfl

theorem packetCalls_of_none (h : kindOf p = none) : packetCalls mc p = [] := by
  rw [packetCalls_kind, h]
  rfl

/-! ### What a kind says about its packet -/

/-- The number is one the unit has cells for. -/
def Meter.Numbered : Meter → Prop
  | .pressure n => 1 ≤ n ∧ n ≤ 3
  | .flowMeter n => n = 1 ∨ n = 2
  | _ => True

/-- What a decoder has tested when it takes the packet. -/
def PacketKind.Tested (p : Nat → UInt8) : PacketKind → Prop
  | .routine m => GroupOk p ∧ dataTyped p = dataTypeRoutineData ∧ m.Numbered
  | .answerOnly _ _ => dataTyped p = dataTypeRoutineData
  | .para addr =>
    GroupOk p ∧ (dataTyped p = dataTypeMeterPara ∨ dataTyped p = 0x0100) ∧
      300 ≤ addr ∧ addr ≤ elecMeterParaAddr
  | .loadFirst =>
    GroupOk p ∧ dataTyped p = dataTypeIntergrationLoadDiagram ∧ (p 10).toNat = 0
  | .loadDiagram i =>
    dataTyped p = dataTypeIntergrationLoadDiagram ∧ (p 10).toNat = i ∧ 0 < i ∧ i < 15
  | .electricalFirst => GroupOk p ∧ dataTyped p = dataTypeElectricityDiagram ∧ (p 10).toNat = 0
  | .electricalDiagram i =>
    dataTyped p = dataTypeElectricityDiagram ∧ (p 10).toNat = i ∧ 0 < i ∧ i < 15

theorem kindOf_tested {k : PacketKind} (h : kindOf p = some k) : k.Tested p := by
  unfold kindOf at h
  split_ifs at h
  · unfold pressureKind at h
    dsimp only at h
    split_ifs at h <;> obtain rfl := Option.some.inj h <;>
      simp_all [PacketKind.Tested, Meter.Numbered] <;> omega
  · unfold temperatureKind at h
    split_ifs at h <;> obtain rfl := Option.some.inj h <;>
      simp_all [PacketKind.Tested, Meter.Numbered]
  · unfold torqueSpeedLoadKind at h
    split_ifs at h <;> obtain rfl := Option.some.inj h <;>
      simp_all [PacketKind.Tested, Meter.Numbered]
  · unfold flowMeterKind at h
    dsimp only at h
    split_ifs at h <;> obtain rfl := Option.some.inj h <;>
      simp_all [PacketKind.Tested, Meter.Numbered]
    omega
  · unfold loadKind at h
    dsimp only at h
    split_ifs at h <;> obtain rfl := Option.some.inj h <;>
      simp_all [PacketKind.Tested, Meter.Numbered]
  · unfold electricalParamKind at h
    dsimp only at h
    split_ifs at h <;> obtain rfl := Option.some.inj h <;>
      simp_all [PacketKind.Tested, Meter.Numbered]

/-- All meters' cells lie from 300 on. -/
theorem packetCalls_from : ∀ c ∈ packetCalls mc p, c.From 300 := by
  cases hk : kindOf p with
  | none =>
      rw [packetCalls_of_none hk]
      exact fun c hc => absurd hc List.not_mem_nil
  | some k =>
      have ht := kindOf_tested hk
      rw [packetCalls_of_kind hk]
      cases k with
      | routine m =>
          cases m <;> simp [PacketKind.calls, Meter.calls, MeterCall.From, saveMeterInfo,
            storeReadings] <;> omega
      | answerOnly slot intervalAddr => simp [PacketKind.calls, MeterCall.From]
      | para addr => simpa [PacketKind.calls, MeterCall.From, saveParam] using ht.2.2.1
      | loadFirst =>
          simp [PacketKind.calls, MeterCall.From]
      | loadDiagram i =>
          simp [PacketKind.calls, MeterCall.From]
          omega
      | electricalFirst => simp [PacketKind.calls, MeterCall.From]
      | electricalDiagram i =>
          simp [PacketKind.calls, MeterCall.From]
          omega

end Packet

end RtuA118
