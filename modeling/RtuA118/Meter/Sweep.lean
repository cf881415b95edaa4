import RtuA118.Lib.Fold
import RtuA118.Meter.Delivery

/-!
# RtuA118.Meter.Sweep

`clear_meter_rtdata`: every twenty seconds the main loop overwrites the readings of the
meters that have been **silent** for ten of their intervals.

A meter has a slot in `meter_sample_time`, which its reports set and the sweep reads.
The sweep has nine rows, one a slot, for each of nine wells; the ninth well is spare
and has no registers. `clearMeterRtdata_row` is what one row does, whatever the others.

The flow meter has a tenth slot, which no row reads, and shares its registers with the
actuator; and the load meter's minutes are turned into seconds in sixteen bits.
`sweep_run` is about every other meter and interval.
-/

namespace RtuA118

open Run (Reach)

/-! ### `clear_meter_rtdata` -/

/-- `RTU_MAX_WELL_NUM`. -/
def rtuMaxWellNum : Nat := 9

/-- `CLEAR_RTDATA_CNT`. -/
def clearRtdataCnt : Int := 10

/-- A read of the first loop: the register, the slots it is stored for, and the factor. -/
structure IntervalRead where
  addr : Nat
  slots : List Nat
  factor : UInt16
deriving DecidableEq

/-- The reads for one well, in order. -/
def intervalReads : List IntervalRead :=
  [⟨oilPressureIntervalAddr, [0], 1⟩,
    ⟨oilPressureIntervalAddr + oilPressureSize, [1], 1⟩,
    ⟨oilPressureIntervalAddr + oilPressureSize * 2, [2], 1⟩,
    ⟨temperatureIntervalAddr, [temperatureNo], 1⟩,
    ⟨loadIntervalAddr, [loadNo], 60⟩,
    ⟨elecIntervalAddr, [electricalParameterNo], 1⟩,
    ⟨stlIntervalAddr, [stlNo], 1⟩,
    ⟨actuatorIntervalAddr, [actuatorNo1, actuatorNo2], 1⟩]

/-- `tmp_sleep_time` and `meter_sample_interval`. -/
structure Intervals where
  tmp : UInt16
  table : Nat → Nat → UInt16

/-- One read. A well without registers leaves the word that was there. -/
def Intervals.read (env : Platform) (s : Rtu) (i : Nat) (c : Intervals) (r : IntervalRead) :
    Intervals :=
  let tmp := readWord env s c.tmp (i + 1) r.addr
  { tmp := tmp
    table := fun j k => if j = i ∧ k ∈ r.slots then tmp * r.factor else c.table j k }

/-- The first loop. -/
def meterSampleInterval (env : Platform) (s : Rtu) : Nat → Nat → UInt16 :=
  ((List.range rtuMaxWellNum).foldl (fun c i => intervalReads.foldl (Intervals.read env s i) c)
    ⟨0, fun _ _ => 0⟩).table

/-- A row of the second loop: the slot, and the registers it clears. -/
structure SweepRow where
  slot : Nat
  addr : Nat
  len : Nat
deriving DecidableEq

/-- The rows for one well, in order. -/
def sweepRows : List SweepRow :=
  [⟨0, oilPressureRtdataAddr, 2⟩,
    ⟨1, oilPressureRtdataAddr + oilPressureSize, 2⟩,
    ⟨2, oilPressureRtdataAddr + 2 * oilPressureSize, 2⟩,
    ⟨temperatureNo, temperatureRtdataAddr, 2⟩,
    ⟨loadNo, loadLoadRtdataAddr, 4⟩,
    ⟨electricalParameterNo, elecCurrentRtdataAddr, 24⟩,
    ⟨stlNo, stlSpeedRtdataAddr, 6⟩,
    ⟨actuatorNo1, actuatorTotalFlowAddr, 11⟩,
    ⟨actuatorNo2, actuator2TotalFlowAddr, 11⟩]

/-- One row: a slot that is past its time is set, and the registers are cleared. -/
def sweepRow (now : Int) (interval : Nat → Nat → UInt16) (i : Nat) (s : Rtu) (r : SweepRow) : Rtu :=
  if now > (interval i r.slot).toNat * clearRtdataCnt + s.meterSampleTime i r.slot then
    (zigbeeWriteRegistersMset 0xFFFF r.len (i + 1 : Nat) r.addr
      { s with meterSampleTime := fun j k =>
          if j = i ∧ k = r.slot then now else s.meterSampleTime j k }).2
  else s

/-- `clear_meter_rtdata`. -/
def clearMeterRtdata (env : Platform) (s : Rtu) : Rtu :=
  (List.range rtuMaxWellNum).foldl
    (fun t i => sweepRows.foldl (sweepRow s.time (meterSampleInterval env s) i) t) s

/-! ### One row -/

section Row

variable (now : Int) (interval : Nat → Nat → UInt16)

theorem mset_word : wordOfBytes (loByte 0xFFFF) (loByte 0xFFFF) = 0xFFFF := by decide

/-- Clearing registers changes these only. -/
theorem zigbeeWriteRegistersMset_ramX (len w addr : Nat) (s : Rtu) (b : Nat) :
    (zigbeeWriteRegistersMset 0xFFFF len w addr s).2.map.ramX b
      = if cellArgsOk s.map len w addr ∧ s.map.xBase w + addr ≤ b ∧ b < s.map.xBase w + addr + len
        then 0xFFFF else s.map.ramX b := by
  unfold zigbeeWriteRegistersMset
  by_cases hok : cellArgsOk s.map len w addr = true
  · simp only [hok, if_true, true_and, Rtu.onMap_map, Int.toNat_natCast, mset_word]
    rfl
  · simp [hok]

/-- Clock, block size and kinds of cells are as before. -/
structure SameShape (s t : Rtu) : Prop where
  xMax : t.map.xMax = s.map.xMax
  time : t.time = s.time
  kinds : t.map.ramXMapType = s.map.ramXMapType

theorem SameShape.trans {s t u : Rtu} (h : SameShape s t) (h' : SameShape t u) : SameShape s u :=
  ⟨h'.xMax.trans h.xMax, h'.time.trans h.time, h'.kinds.trans h.kinds⟩

theorem zigbeeWriteRegistersMset_rest (v : UInt16) (len w addr : Int) (s : Rtu) :
    (zigbeeWriteRegistersMset v len w addr s).2.map.xMax = s.map.xMax ∧
      (zigbeeWriteRegistersMset v len w addr s).2.meterSampleTime = s.meterSampleTime ∧
      (zigbeeWriteRegistersMset v len w addr s).2.time = s.time ∧
      (zigbeeWriteRegistersMset v len w addr s).2.map.ramXMapType = s.map.ramXMapType := by
  unfold zigbeeWriteRegistersMset
  split <;> exact ⟨rfl, rfl, rfl, rfl⟩

theorem sweepRow_rest (i : Nat) (s : Rtu) (r : SweepRow) :
    SameShape s (sweepRow now interval i s r) := by
  unfold sweepRow
  split
  · have h := zigbeeWriteRegistersMset_rest 0xFFFF r.len (i + 1 : Nat) r.addr
      { s with meterSampleTime := fun j k =>
          if j = i ∧ k = r.slot then now else s.meterSampleTime j k }
    exact ⟨h.1, h.2.2.1, h.2.2.2⟩
  · exact ⟨rfl, rfl, rfl⟩

/-- What belongs to a row: its time, and one of its cells. -/
def rowView (i slot b : Nat) (s : Rtu) : Int × UInt16 := (s.meterSampleTime i slot, s.map.ramX b)

/-- What the row does to it. -/
def sweepView (now : Int) (interval : UInt16) (v : Int × UInt16) : Int × UInt16 :=
  if now > interval.toNat * clearRtdataCnt + v.1 then (now, 0xFFFF) else v

theorem sweepRow_own {i a : Nat} {s : Rtu} {r : SweepRow} (hi : i < maxWellNum) (ha : a < r.len)
    (hfit : r.addr + r.len ≤ s.map.xMax) :
    rowView i r.slot (s.map.xMax * i + (r.addr + a)) (sweepRow now interval i s r)
      = sweepView now (interval i r.slot)
          (rowView i r.slot (s.map.xMax * i + (r.addr + a)) s) := by
  have hok : cellArgsOk s.map r.len (i + 1 : Nat) r.addr = true := by
    unfold maxWellNum at hi
    rw [cellArgsOk_iff]
    omega
  unfold sweepRow sweepView rowView
  dsimp only
  split
  · rw [zigbeeWriteRegistersMset_ramX, (zigbeeWriteRegistersMset_rest _ _ _ _ _).2.1]
    refine Prod.ext (if_pos ⟨rfl, rfl⟩) (if_pos ⟨hok, ?_⟩)
    show s.map.xMax * i + r.addr ≤ _ ∧ _ < s.map.xMax * i + r.addr + r.len
    omega
  · rfl

theorem sweepRow_other {i j slot b : Nat} {s : Rtu} {r : SweepRow}
    (hkey : ¬ (j = i ∧ slot = r.slot))
    (hb : cellArgsOk s.map r.len (i + 1 : Nat) r.addr = true →
      ¬ (s.map.xMax * i + r.addr ≤ b ∧ b < s.map.xMax * i + r.addr + r.len)) :
    rowView j slot b (sweepRow now interval i s r) = rowView j slot b s := by
  unfold sweepRow rowView
  split
  · rw [zigbeeWriteRegistersMset_ramX, (zigbeeWriteRegistersMset_rest _ _ _ _ _).2.1]
    exact Prod.ext (if_neg hkey) (if_neg fun h => hb h.1 h.2)
  · rfl

end Row

/-! ### The whole sweep -/

theorem intervalReads_apart : ∀ r ∈ intervalReads, ∀ r' ∈ intervalReads, r' ≠ r →
    ∀ k ∈ r.slots, k ∉ r'.slots := by decide

theorem sweepRows_apart : ∀ r ∈ sweepRows, ∀ r' ∈ sweepRows, r' ≠ r → r.slot ≠ r'.slot ∧
    (r.addr + r.len ≤ r'.addr ∨ r'.addr + r'.len ≤ r.addr) := by decide

theorem sweepRows_fit : ∀ r ∈ sweepRows, r.addr + r.len ≤ 1901 := by decide

section Sweep

variable {env : Platform} {i : Nat} {s : Rtu}

/-- The entry is the register's word, read into some word, times the factor. -/
def Intervals.Holds (env : Platform) (s : Rtu) (i k : Nat) (r : IntervalRead) (c : Intervals) :
    Prop :=
  ∃ cur, c.table i k = readWord env s cur (i + 1) r.addr * r.factor

theorem meterSampleInterval_read (env : Platform) (s : Rtu) {r : IntervalRead} {k : Nat}
    (hi : i < rtuMaxWellNum) (hr : r ∈ intervalReads) (hk : k ∈ r.slots) :
    ∃ cur, meterSampleInterval env s i k = readWord env s cur (i + 1) r.addr * r.factor := by
  refine Fold.foldl_brings (Q := Intervals.Holds env s i k r) (List.mem_range.2 hi) ?_ ?_
  · intro c
    refine Fold.foldl_brings (Q := Intervals.Holds env s i k r) hr
      (fun c => ⟨c.tmp, if_pos ⟨rfl, hk⟩⟩) fun c r' hr' hne hc => ?_
    obtain ⟨cur, hcur⟩ := hc
    exact ⟨cur, (if_neg fun h => intervalReads_apart r hr r' hr' hne k hk h.2).trans hcur⟩
  · intro c j _ hne hc
    refine List.foldlRecOn (motive := Intervals.Holds env s i k r) intervalReads _ hc
      fun c hc r' _ => ?_
    obtain ⟨cur, hcur⟩ := hc
    exact ⟨cur, (if_neg fun h => hne h.1.symm).trans hcur⟩

theorem clearMeterRtdata_rest : SameShape s (clearMeterRtdata env s) := by
  refine List.foldlRecOn (motive := SameShape s) _ _ ⟨rfl, rfl, rfl⟩ fun t ht j _ => ?_
  refine List.foldlRecOn (motive := SameShape s) sweepRows _ ht fun t ht r _ => ?_
  exact ht.trans (sweepRow_rest s.time (meterSampleInterval env s) j t r)

/-- **A row of the sweep** does its own work, whatever the others do. -/
theorem clearMeterRtdata_row {r : SweepRow} {a : Nat} (hi : i < maxWellNum) (hr : r ∈ sweepRows)
    (ha : a < r.len) (hroom : 1901 ≤ s.map.xMax) :
    rowView i r.slot (s.map.xMax * i + (r.addr + a)) (clearMeterRtdata env s)
      = sweepView s.time (meterSampleInterval env s i r.slot)
          (rowView i r.slot (s.map.xMax * i + (r.addr + a)) s) := by
  have hfit := sweepRows_fit r hr
  have hmax : ∀ j, ∀ t : Rtu, ∀ r' ∈ sweepRows, t.map.xMax = s.map.xMax →
      (sweepRow s.time (meterSampleInterval env s) j t r').map.xMax = s.map.xMax :=
    fun j t r' _ ht => (sweepRow_rest _ _ j t r').xMax.trans ht
  have hmaxes : ∀ t : Rtu, ∀ j ∈ List.range rtuMaxWellNum, t.map.xMax = s.map.xMax →
      (sweepRows.foldl (sweepRow s.time (meterSampleInterval env s) j) t).map.xMax = s.map.xMax :=
    fun t j _ ht => List.foldlRecOn (motive := fun t : Rtu => t.map.xMax = s.map.xMax) sweepRows _
      ht fun t ht r' hr' => hmax j t r' hr' ht
  refine Fold.foldl_once (I := fun t : Rtu => t.map.xMax = s.map.xMax) List.nodup_range
    (List.mem_range.2 (Nat.lt_succ_of_lt hi)) rfl hmaxes ?_ ?_
  · -- another well's block
    intro t j hj hne ht
    refine Fold.foldl_keep ht (fun t r' hr' ht => hmax j t r' hr' ht) fun t r' hr' ht => ?_
    refine sweepRow_other _ _ (fun h => hne h.1.symm) fun hok hb => hne ?_
    have hfit' := sweepRows_fit r' hr'
    rw [ht] at hb
    have hpos : 0 < s.map.xMax := by omega
    have hdiv : ∀ c x, x < s.map.xMax → (s.map.xMax * c + x) / s.map.xMax = c := fun c x hx => by
      rw [Nat.mul_add_div hpos, Nat.div_eq_of_lt hx, Nat.add_zero]
    have hi' := hdiv i (r.addr + a) (by omega)
    obtain ⟨x, hx, heq⟩ : ∃ x < s.map.xMax,
        s.map.xMax * i + (r.addr + a) = s.map.xMax * j + x :=
      ⟨s.map.xMax * i + (r.addr + a) - s.map.xMax * j, by omega, by omega⟩
    rw [heq, hdiv j x hx] at hi'
    exact hi'
  · intro t ht
    refine Fold.foldl_once (I := fun t : Rtu => t.map.xMax = s.map.xMax) (by decide) hr ht
      (fun t r' hr' ht => hmax i t r' hr' ht) ?_ ?_
    · -- another row of the well
      intro t r' hr' hne ht
      obtain ⟨hslot, hapart⟩ := sweepRows_apart r hr r' hr' hne
      refine sweepRow_other _ _ (fun h => hslot h.2) fun _ hb => ?_
      rw [ht] at hb
      omega
    · intro t ht
      have hown := sweepRow_own s.time (meterSampleInterval env s) (s := t) hi ha (by omega)
      rw [ht] at hown
      exact hown

end Sweep

/-! ### Meters and their slots -/

/-- The slot a routine packet sets. -/
def Meter.slot : Meter → Nat
  | .pressure n => n - 1
  | .temperature => temperatureNo
  | .torqueSpeedLoad => stlNo
  | .flowMeter _ => wlFlowMeterNo
  | .load => loadNo
  | .electricalParam => electricalParameterNo

/-- The meters with a slot: those with packets, and the two actuators on the bus. -/
inductive Sampled where
  | meter (m : Meter)
  | actuator (n : Nat)
deriving DecidableEq

namespace Sampled

def Numbered : Sampled → Prop
  | .meter m => m.Numbered
  | .actuator n => n = 1 ∨ n = 2

def slot : Sampled → Nat
  | .meter m => m.slot
  | .actuator n => actuatorNo1 + (n - 1)

/-- The flow meter, which has the actuator's registers. -/
def IsFlow (m : Sampled) : Prop := ∃ n, m = .meter (.flowMeter n)

/-- The slot whose row clears its registers. -/
def clearSlot : Sampled → Nat
  | .meter (.flowMeter n) => actuatorNo1 + (n - 1)
  | m => m.slot

/-- The first of its real-time registers, and how many there are. -/
def addr : Sampled → Nat
  | .meter (.pressure n) => oilPressureRtdataAddr + (n - 1) * oilPressureSize
  | .meter .temperature => temperatureRtdataAddr
  | .meter .torqueSpeedLoad => stlSpeedRtdataAddr
  | .meter (.flowMeter n) => actuatorTotalFlowAddr + 15 * (n - 1)
  | .meter .load => loadLoadRtdataAddr
  | .meter .electricalParam => elecCurrentRtdataAddr
  | .actuator n => actuatorTotalFlowAddr + 15 * (n - 1)

def len : Sampled → Nat
  | .meter (.pressure _) => 2
  | .meter .temperature => 2
  | .meter .torqueSpeedLoad => 6
  | .meter (.flowMeter _) => 4
  | .meter .load => 4
  | .meter .electricalParam => 24
  | .actuator _ => 11

/-- The register of its interval, and the seconds in the register's unit. -/
def intervalAddr : Sampled → Nat
  | .meter (.pressure n) => oilPressureIntervalAddr + (n - 1) * oilPressureSize
  | .meter .temperature => temperatureIntervalAddr
  | .meter .torqueSpeedLoad => stlIntervalAddr
  | .meter (.flowMeter _) => actuatorIntervalAddr
  | .meter .load => loadIntervalAddr
  | .meter .electricalParam => elecIntervalAddr
  | .actuator _ => actuatorIntervalAddr

def unit : Sampled → Nat
  | .meter .load => 60
  | _ => 1

/-- The configured interval in seconds. -/
def interval (env : Platform) (s : Rtu) (w : Nat) (m : Sampled) : Int :=
  (readWord env s 0 w m.intervalAddr).toNat * m.unit

/-- All of them but the flow meters. -/
def all : List Sampled :=
  [.meter (.pressure 1), .meter (.pressure 2), .meter (.pressure 3), .meter .temperature,
    .meter .torqueSpeedLoad, .meter .load, .meter .electricalParam, .actuator 1, .actuator 2]

theorem mem_all {m : Sampled} (hm : m.Numbered) (hflow : ¬ m.IsFlow) : m ∈ all := by
  cases m with
  | meter m =>
      cases m with
      | pressure n =>
          obtain ⟨h1, h3⟩ := hm
          obtain rfl | rfl | rfl : n = 1 ∨ n = 2 ∨ n = 3 := by omega
          all_goals decide
      | flowMeter n => exact absurd ⟨n, rfl⟩ hflow
      | _ => decide
  | actuator n => obtain rfl | rfl := hm <;> decide

theorem row_of_mem : ∀ m ∈ all, ⟨m.slot, m.addr, m.len⟩ ∈ sweepRows ∧
    ∃ r ∈ intervalReads,
      r.addr = m.intervalAddr ∧ m.slot ∈ r.slots ∧ r.factor.toNat = m.unit := by
  decide

theorem slot_inj_of_mem : ∀ m ∈ all, ∀ m' ∈ all, m.slot = m'.slot → m = m' := by decide

/-- No row reads the flow meters' slot. -/
theorem not_isFlow_of_slot {m m' : Sampled} (hm : m.Numbered) (hflow : ¬ m.IsFlow)
    (h : m'.slot = m.slot) : ¬ m'.IsFlow := by
  rintro ⟨n, rfl⟩
  have hall : ∀ m ∈ all, m.slot ≠ wlFlowMeterNo := by decide
  exact hall m (mem_all hm hflow) h.symm

end Sampled

/-! ### Reports -/

/-- The well and the meter a frame is a routine packet of. -/
def reportOf (q : Nat → UInt8) : Option (Nat × Sampled) :=
  match kindOf (packetOf q) with
  | some (.routine m) =>
    if q 3 = zigbeeRcvDataFramid then some ((sensorGroup (packetOf q)).toNat, .meter m) else none
  | _ => none

theorem reportOf_iff {q : Nat → UInt8} {w : Nat} {m : Sampled} :
    reportOf q = some (w, m) ↔ q 3 = zigbeeRcvDataFramid ∧
      (sensorGroup (packetOf q)).toNat = w ∧
      ∃ m', kindOf (packetOf q) = some (.routine m') ∧ .meter m' = m := by
  unfold reportOf
  split
  · rename_i m' hm'
    split <;> simp_all
  · rename_i hne
    simp only [reduceCtorEq, false_iff, not_and, not_exists]
    exact fun _ _ m' hm' => absurd hm' (hne m')

section Frame

variable {env : Platform} {mc : Machine} {o : Origin} {j k : Nat}

theorem MeterCall.run_meterSampleTime {c : MeterCall} {s : Rtu} (h : c.From 10) :
    (c.run env mc o s).meterSampleTime j k
      = if c = .sampleTime k ∧ j = o.group.toNat - 1 then s.time else s.meterSampleTime j k := by
  cases c with
  | answer slot intervalAddr cur =>
      have ha := answerRoutine_answers env o slot intervalAddr cur
        (fun s => show Keeps s (id s) from ⟨rfl, rfl, rfl, rfl⟩) s
      simpa [MeterCall.run] using congrFun (congrFun ha.meterSampleTime j) k
  | answerElec =>
      have ha := answerRoutine_answers env o electricalParameterNo elecIntervalAddr 0
        (fun s => show Keeps s (keepMac o s) from ⟨rfl, rfl, rfl, rfl⟩) s
      simpa [MeterCall.run] using congrFun (congrFun ha.meterSampleTime j) k
  | answerLoad =>
      have ha := answerLoadRoutine_answers env mc o s
      simpa [MeterCall.run] using congrFun (congrFun ha.meterSampleTime j) k
  | sampleTime slot =>
      unfold MeterCall.run
      simp only [sampleTime.injEq, and_comm, eq_comm]
  | store addr words =>
      simpa [MeterCall.run] using congrFun (congrFun (writeWords_keeps h).2.1 j) k
  | saveTime addr =>
      simpa [MeterCall.run] using congrFun (congrFun (writeWords_keeps h).2.1 j) k
  | ack dataType index =>
      have ha := MeterCall.ack_answers env mc o dataType index s
      simpa using congrFun (congrFun ha.meterSampleTime j) k
  | loadElecSysn synchronTime cycleTime samplePoints => simp [MeterCall.run, Rtu.post]

theorem runCalls_meterSampleTime : ∀ {cs : List MeterCall} {s : Rtu}, (∀ c ∈ cs, c.From 10) →
    (runCalls env mc o cs s).meterSampleTime j k
      = if .sampleTime k ∈ cs ∧ j = o.group.toNat - 1 then s.time
        else s.meterSampleTime j k := by
  intro cs
  induction cs with
  | nil => intro s _; simp [runCalls]
  | cons c cs ih =>
      intro s h
      have hc := h c List.mem_cons_self
      rw [runCalls_cons, ih fun d hd => h d (List.mem_cons_of_mem _ hd), MeterCall.run_time hc,
        MeterCall.run_meterSampleTime hc]
      by_cases hj : j = o.group.toNat - 1
      · by_cases hcs : MeterCall.sampleTime k ∈ cs
        · simp [hj, hcs]
        · simp [hj, hcs, eq_comm]
      · simp [hj]

/-- The one slot a packet sets is its meter's. -/
theorem sampleTime_mem {p : Nat → UInt8} :
    MeterCall.sampleTime k ∈ packetCalls mc p ↔
      ∃ m, kindOf p = some (.routine m) ∧ m.slot = k := by
  rw [packetCalls_kind]
  cases kindOf p with
  | none => simp [kindCalls]
  | some kind =>
      cases kind with
      | routine m =>
          cases m <;> simp [kindCalls, PacketKind.calls, Meter.calls, Meter.slot, saveMeterInfo,
            storeReadings, eq_comm]
      | answerOnly slot intervalAddr => simp [kindCalls, PacketKind.calls]
      | para addr => simp [kindCalls, PacketKind.calls, saveParam]
      | loadFirst => simp [kindCalls, PacketKind.calls]
      | loadDiagram i =>
          by_cases hi : i = 14 <;> simp [kindCalls, PacketKind.calls, hi]
      | electricalFirst => simp [kindCalls, PacketKind.calls]
      | electricalDiagram i =>
          by_cases hi : i = 14 <;> simp [kindCalls, PacketKind.calls, hi]

/-- **A frame** sets the slot of the meter that reports, and no other. -/
theorem analysis_meterSampleTime (env : Platform) (mc : Machine) (q : Nat → UInt8) (s : Rtu)
    (w : Nat) (k : Nat) (hw : 1 ≤ w) :
    (analysisZigbeeRcvData env mc q s).2.meterSampleTime (w - 1) k = s.meterSampleTime (w - 1) k ∧
        (∀ m, reportOf q = some (w, m) → m.slot ≠ k) ∨
      (analysisZigbeeRcvData env mc q s).2.meterSampleTime (w - 1) k = s.time ∧
        ∃ m, reportOf q = some (w, m) ∧ m.slot = k := by
  by_cases hid : q 3 = zigbeeRcvDataFramid
  · have hrun : (analysisZigbeeRcvData env mc q s).2
        = runCalls env mc (originOf q) (packetCalls mc (packetOf q)) s := by
      unfold analysisZigbeeRcvData
      rw [if_neg (not_not.2 hid)]
    have hgroup : (originOf q).group = sensorGroup (packetOf q) := rfl
    rw [hrun, runCalls_meterSampleTime fun c hc => (packetCalls_from c hc).mono (by omega),
      hgroup]
    by_cases hk : ∃ m, kindOf (packetOf q) = some (.routine m) ∧ m.slot = k
    · obtain ⟨m, hm, hslot⟩ := hk
      -- a routine packet is taken only for a well there is
      have hpos := (kindOf_tested hm).1.1
      by_cases hgw : (sensorGroup (packetOf q)).toNat = w
      · exact .inr ⟨if_pos ⟨sampleTime_mem.2 ⟨m, hm, hslot⟩, by omega⟩, .meter m,
          reportOf_iff.2 ⟨hid, hgw, m, hm, rfl⟩, hslot⟩
      · exact .inl ⟨if_neg fun h => hgw (by omega), fun m' h' =>
          absurd (reportOf_iff.1 h').2.1 hgw⟩
    · refine .inl ⟨if_neg fun h => hk (sampleTime_mem.1 h.1), fun m' h' hslot => hk ?_⟩
      obtain ⟨-, -, m'', hm'', rfl⟩ := reportOf_iff.1 h'
      exact ⟨m'', hm'', hslot⟩
  · left
    unfold analysisZigbeeRcvData
    rw [if_pos hid]
    exact ⟨rfl, fun m h => absurd (reportOf_iff.1 h).1 hid⟩

end Frame

/-! ### Runs of reports and sweeps -/

/-- The map has the meters' registers, and cells of the loader's kinds. -/
structure MapT.Metered (m : MapT) : Prop where
  room : 1901 ≤ m.xMax
  kinds : ∀ b, m.ramXMapType b = .null ∨ m.ramXMapType b = .ram ∨ m.ramXMapType b = .flash1 ∨
    m.ramXMapType b = .flash2 ∨ m.ramXMapType b = .sys

/-- The unit, and when each meter reported last and was cleared last. -/
structure Metering where
  rtu : Rtu
  lastReport : Nat → Sampled → Option Int
  lastClear : Nat → Sampled → Int

inductive MeterEvent where
  | frame (q : Nat → UInt8)
  | wired (w : Nat) (m : Sampled)
  | sweep
  | elsewhere

/-- The sweep finds the slot of the meter's row past its time. -/
def Clears (env : Platform) (s : Rtu) (w : Nat) (m : Sampled) : Prop :=
  s.time > (meterSampleInterval env s (w - 1) m.clearSlot).toNat * clearRtdataCnt +
    s.meterSampleTime (w - 1) m.clearSlot

instance (env : Platform) (s : Rtu) (w : Nat) (m : Sampled) : Decidable (Clears env s w m) :=
  inferInstanceAs (Decidable (_ < _))

/-- The meters on the bus of the unit. -/
def Sampled.IsWired (m : Sampled) : Prop :=
  m = .meter .electricalParam ∨ m = .actuator 1 ∨ m = .actuator 2

/-- One step: a frame is decoded, a meter on the bus has answered, the sweep runs, or
anything else that sets no slot. The clock does not go back. -/
inductive MeterStep (env : Platform) (mc : Machine) (c : Metering) :
    MeterEvent → Metering → Prop where
  | frame (q : Nat → UInt8) :
      MeterStep env mc c (.frame q)
        { c with
          rtu := (analysisZigbeeRcvData env mc q c.rtu).2
          lastReport := fun w m =>
            if reportOf q = some (w, m) then some c.rtu.time else c.lastReport w m }
  | wired {w : Nat} {m : Sampled} {s : Rtu} (hw : 1 ≤ w) (hw8 : w ≤ maxWellNum) (hm : m.IsWired)
      (htime : c.rtu.time ≤ s.time) (hmap : s.map.Metered)
      (hslot : s.meterSampleTime = fun j k =>
        if j = w - 1 ∧ k = m.slot then c.rtu.time else c.rtu.meterSampleTime j k) :
      MeterStep env mc c (.wired w m)
        { c with
          rtu := s
          lastReport := fun w' m' =>
            if w' = w ∧ m' = m then some c.rtu.time else c.lastReport w' m' }
  | sweep :
      MeterStep env mc c .sweep
        { c with
          rtu := clearMeterRtdata env c.rtu
          lastClear := fun w m =>
            if Clears env c.rtu w m then c.rtu.time else c.lastClear w m }
  | elsewhere {s : Rtu} (htime : c.rtu.time ≤ s.time) (hmap : s.map.Metered)
      (hslot : s.meterSampleTime = c.rtu.meterSampleTime) :
      MeterStep env mc c .elsewhere { c with rtu := s }

theorem MapT.Metered.of_shape {m m' : MapT} (h : m.Metered) (hx : m'.xMax = m.xMax)
    (hk : m'.ramXMapType = m.ramXMapType) : m'.Metered :=
  ⟨hx ▸ h.room, hk ▸ h.kinds⟩

theorem analysis_time (env : Platform) (mc : Machine) (q : Nat → UInt8) (s : Rtu) :
    (analysisZigbeeRcvData env mc q s).2.time = s.time := by
  unfold analysisZigbeeRcvData
  split
  · rfl
  · exact runCalls_time fun c hc => (packetCalls_from c hc).mono (by omega)

theorem Sampled.IsWired.numbered {m : Sampled} (h : m.IsWired) : m.Numbered ∧ ¬ m.IsFlow := by
  obtain rfl | rfl | rfl := h
  · exact ⟨trivial, fun ⟨_, h⟩ => by simp at h⟩
  · exact ⟨.inl rfl, fun ⟨_, h⟩ => by simp at h⟩
  · exact ⟨.inr rfl, fun ⟨_, h⟩ => by simp at h⟩

namespace Metering

/-- After a boot: no report, and every slot at zero. -/
def Starts (c : Metering) : Prop :=
  ∃ m : MapT, m.Metered ∧ c = ⟨.start m, fun _ _ => none, fun _ _ => 0⟩

/-- The later of the last report and the last clearing. -/
def since (c : Metering) (w : Nat) (m : Sampled) : Int :=
  max ((c.lastReport w m).getD (c.lastClear w m)) (c.lastClear w m)

/-- **The sweep** overwrites a meter's registers exactly when ten of its intervals have
passed. -/
def SweepsRight (env : Platform) (c c' : Metering) (w : Nat) (m : Sampled) : Prop :=
  ∀ a < m.len, c'.rtu.map.ramX (c.rtu.map.xBase w + (m.addr + a))
    = if c.rtu.time > c.since w m + 10 * m.interval env c.rtu w then 0xFFFF
      else c.rtu.map.ramX (c.rtu.map.xBase w + (m.addr + a))

/-- The meter is not a flow meter, and its interval in seconds fits sixteen bits. -/
def SweepOk (env : Platform) (c : Metering) (w : Nat) (m : Sampled) : Prop :=
  ¬ m.IsFlow ∧ (m = .meter .load → (readWord env c.rtu 0 w loadIntervalAddr).toNat ≤ 1092)

/-! ### The slots hold the times -/

/-- Every slot with a row is the later of its meter's two times. -/
structure Inv (c : Metering) : Prop where
  metered : c.rtu.map.Metered
  times : ∀ w, 1 ≤ w → w ≤ maxWellNum → ∀ m : Sampled, m.Numbered → ¬ m.IsFlow →
    c.rtu.meterSampleTime (w - 1) m.slot = c.since w m
  reports : ∀ w m t, c.lastReport w m = some t → t ≤ c.rtu.time
  clears : ∀ w m, c.lastClear w m ≤ c.rtu.time

theorem since_of_report {c : Metering} {w : Nat} {m : Sampled} {t : Int}
    (h : c.lastReport w m = some t) : c.since w m = max t (c.lastClear w m) := by
  unfold since
  rw [h, Option.getD_some]

theorem Starts.inv {c : Metering} (h : c.Starts) : c.Inv := by
  obtain ⟨m, hm, rfl⟩ := h
  exact ⟨hm, fun _ _ _ _ _ _ => rfl, fun _ _ _ h => (Option.some_ne_none _ h.symm).elim,
    fun _ _ => Int.le_refl 0⟩

/-- The row of a meter, at one of its registers. -/
theorem clearMeterRtdata_meter (env : Platform) {s : Rtu} {w a : Nat} {m : Sampled} (hw : 1 ≤ w)
    (hw8 : w ≤ maxWellNum) (hm : m.Numbered) (hflow : ¬ m.IsFlow) (ha : a < m.len)
    (hroom : 1901 ≤ s.map.xMax) :
    rowView (w - 1) m.slot (s.map.xBase w + (m.addr + a)) (clearMeterRtdata env s)
      = sweepView s.time (meterSampleInterval env s (w - 1) m.slot)
          (rowView (w - 1) m.slot (s.map.xBase w + (m.addr + a)) s) :=
  clearMeterRtdata_row (i := w - 1) (by omega)
    (Sampled.row_of_mem m (Sampled.mem_all hm hflow)).1 ha hroom

section Steps

variable {env : Platform} {mc : Machine} {c : Metering}

/-- A frame sets the slot of the meter it reports, and of no other one. -/
theorem inv_frame (h : c.Inv) (q : Nat → UInt8) :
    Inv { c with
      rtu := (analysisZigbeeRcvData env mc q c.rtu).2
      lastReport := fun w m =>
        if reportOf q = some (w, m) then some c.rtu.time else c.lastReport w m } := by
  have htab : (analysisZigbeeRcvData env mc q c.rtu).2.map.tables = c.rtu.map.tables :=
    analysis_tables env mc q c.rtu
  have htime := analysis_time env mc q c.rtu
  refine ⟨h.metered.of_shape (congrArg Tables.xMax htab) (congrArg Tables.ramXMapType htab),
    fun w hw hw8 m hm hflow => ?_, fun w m t ht => ?_, fun w m => htime ▸ h.clears w m⟩
  · dsimp only
    rcases analysis_meterSampleTime env mc q c.rtu w m.slot hw with
      ⟨hslot, hnone⟩ | ⟨hslot, m', hrep, hm'⟩
    · have hno : reportOf q ≠ some (w, m) := fun hq => hnone m hq rfl
      rw [hslot, h.times w hw hw8 m hm hflow]
      unfold since
      simp only [hno, if_false]
    · -- the slot is no other meter's
      obtain ⟨-, -, m'', hkind, rfl⟩ := reportOf_iff.1 hrep
      have hnum : (Sampled.meter m'').Numbered := (kindOf_tested hkind).2.2
      have hnoflow := Sampled.not_isFlow_of_slot hm hflow hm'
      obtain rfl := Sampled.slot_inj_of_mem _ (Sampled.mem_all hnum hnoflow) _
        (Sampled.mem_all hm hflow) hm'
      rw [hslot, since_of_report (if_pos hrep), Int.max_eq_left (h.clears w _)]
  · dsimp only at ht ⊢
    rw [htime]
    split at ht
    · exact Int.le_of_eq (Option.some.inj ht).symm
    · exact h.reports w m t ht

theorem inv_wired {w : Nat} {m : Sampled} {s : Rtu} (h : c.Inv) (hw : 1 ≤ w) (hm : m.IsWired)
    (htime : c.rtu.time ≤ s.time) (hmap : s.map.Metered)
    (hslot : s.meterSampleTime = fun j k =>
      if j = w - 1 ∧ k = m.slot then c.rtu.time else c.rtu.meterSampleTime j k) :
    Inv { c with
      rtu := s
      lastReport := fun w' m' =>
        if w' = w ∧ m' = m then some c.rtu.time else c.lastReport w' m' } := by
  obtain ⟨hnum, hnoflow⟩ := hm.numbered
  refine ⟨hmap, fun w' hw' hw8' m' hm' hflow' => ?_, fun w' m' t ht => ?_,
    fun w' m' => Int.le_trans (h.clears w' m') htime⟩
  · dsimp only
    rw [hslot]
    dsimp only
    by_cases hkey : w' = w ∧ m' = m
    · obtain ⟨rfl, rfl⟩ := hkey
      rw [if_pos ⟨rfl, rfl⟩, since_of_report (if_pos ⟨rfl, rfl⟩),
        Int.max_eq_left (h.clears w' m')]
    · have hother : ¬ (w' - 1 = w - 1 ∧ m'.slot = m.slot) := fun hk =>
        hkey ⟨by omega, Sampled.slot_inj_of_mem _ (Sampled.mem_all hm' hflow') _
          (Sampled.mem_all hnum hnoflow) hk.2⟩
      rw [if_neg hother, h.times w' hw' hw8' m' hm' hflow']
      unfold since
      simp only [hkey, if_false]
  · dsimp only at ht
    split at ht
    · obtain rfl := Option.some.inj ht
      exact htime
    · exact Int.le_trans (h.reports w' m' t ht) htime

/-- The sweep sets the slots of the meters it clears to its own time. -/
theorem inv_sweep (h : c.Inv) :
    Inv { c with
      rtu := clearMeterRtdata env c.rtu
      lastClear := fun w m => if Clears env c.rtu w m then c.rtu.time else c.lastClear w m } := by
  have hshape : SameShape c.rtu (clearMeterRtdata env c.rtu) := clearMeterRtdata_rest
  refine ⟨h.metered.of_shape hshape.xMax hshape.kinds, fun w hw hw8 m hm hflow => ?_,
    fun w m t ht => hshape.time ▸ h.reports w m t ht, fun w m => ?_⟩
  · have hlen : 0 < m.len := by
      unfold Sampled.len
      split <;> decide
    have hrow := congrArg Prod.fst
      (clearMeterRtdata_meter env hw hw8 hm hflow hlen h.metered.room)
    have hclear : m.clearSlot = m.slot := by
      unfold Sampled.clearSlot
      split
      · exact absurd ⟨_, rfl⟩ hflow
      · rfl
    have hdue : Clears env c.rtu w m ↔ c.rtu.time
        > (meterSampleInterval env c.rtu (w - 1) m.slot).toNat * clearRtdataCnt
          + c.rtu.meterSampleTime (w - 1) m.slot := by
      unfold Clears
      rw [hclear]
    unfold sweepView rowView at hrow
    dsimp only at hrow ⊢
    rw [hrow]
    have hclears := h.clears w m
    have hreports := h.reports w m
    have htimes := h.times w hw hw8 m hm hflow
    by_cases hc : Clears env c.rtu w m
    · rw [if_pos (hdue.1 hc)]
      unfold since
      simp only [hc, if_true]
      cases hl : c.lastReport w m with
      | none => simp
      | some t => exact (Int.max_eq_right (hreports t hl)).symm
    · rw [if_neg fun hd => hc (hdue.2 hd)]
      dsimp only
      rw [htimes]
      unfold since
      simp only [hc, if_false]
  · dsimp only
    rw [hshape.time]
    split
    · exact Int.le_refl _
    · exact h.clears w m

theorem inv_step {c' : Metering} {e : MeterEvent} (h : c.Inv) (hs : MeterStep env mc c e c') :
    c'.Inv := by
  cases hs with
  | frame q => exact inv_frame h q
  | wired hw hw8 hm htime hmap hslot => exact inv_wired h hw hm htime hmap hslot
  | sweep => exact inv_sweep h
  | elsewhere htime hmap hslot =>
      refine ⟨hmap, fun w hw hw8 m hm hflow => ?_,
        fun w m t ht => Int.le_trans (h.reports w m t ht) htime,
        fun w m => Int.le_trans (h.clears w m) htime⟩
      dsimp only
      rw [hslot]
      exact h.times w hw hw8 m hm hflow

end Steps

/-! ### Sweeps of a run -/

/-- A read into another word is the same read: no interval has a pin or the battery
behind it. -/
theorem readWord_cur {env : Platform} {s : Rtu} {w i : Nat} (cur : UInt16) (hw : 1 ≤ w)
    (hw8 : w ≤ maxWellNum) (hmap : s.map.Metered) (hi : 300 ≤ i ∧ i < 1854 ∨ i = 1870) :
    readWord env s cur w i = readWord env s 0 w i := by
  have hroom := hmap.room
  have hcell : readCell env s cur w i = readCell env s 0 w i := by
    have hfun : mapMapFunRead env s cur w i = mapMapFunRead env s 0 w i := by
      have hb : i ≠ mapGetBatteryVoltage := by
        unfold mapGetBatteryVoltage
        omega
      have hd : ¬ (mapGetDI0 ≤ i ∧ i < mapGetDI0 + 8) := by
        unfold mapGetDI0
        omega
      unfold mapMapFunRead
      simp only [hb, hd, if_false]
    unfold readCell
    rcases hmap.kinds (s.map.xBase w + i) with h | h | h | h | h <;> rw [h]
    dsimp only
    rw [hfun]
  unfold readWord
  rw [zigbeeReadRegisters_one hw hw8, zigbeeReadRegisters_one hw hw8, if_pos (by omega),
    if_pos (by omega)]
  exact hcell

/-- The interval that the sweep works with is the configured one. -/
theorem interval_eq {env : Platform} {c : Metering} {w : Nat} {m : Sampled} (h : c.Inv)
    (hw : 1 ≤ w) (hw8 : w ≤ maxWellNum) (hm : m.Numbered) (hok : c.SweepOk env w m) :
    ((meterSampleInterval env c.rtu (w - 1) m.slot).toNat : Int) = m.interval env c.rtu w := by
  have hmem := Sampled.mem_all hm hok.1
  obtain ⟨r, hr, haddr, hslot, hfactor⟩ := (Sampled.row_of_mem m hmem).2
  obtain ⟨cur, htable⟩ := meterSampleInterval_read env c.rtu
    (show w - 1 < rtuMaxWellNum from Nat.lt_succ_of_le (Nat.le_trans (Nat.sub_le w 1) hw8)) hr hslot
  have hplace : ∀ m ∈ Sampled.all,
      300 ≤ m.intervalAddr ∧ m.intervalAddr < 1854 ∨ m.intervalAddr = 1870 := by decide
  rw [haddr, Nat.sub_add_cancel hw, readWord_cur cur hw hw8 h.metered (hplace m hmem)] at htable
  have hsmall : (readWord env c.rtu 0 w m.intervalAddr).toNat * m.unit < 65536 := by
    have hlt := (readWord env c.rtu 0 w m.intervalAddr).toNat_lt
    by_cases hload : m = .meter .load
    · subst hload
      have h1092 := hok.2 rfl
      show (readWord env c.rtu 0 w loadIntervalAddr).toNat * 60 < 65536
      omega
    · have hunit : m.unit = 1 := by
        unfold Sampled.unit
        split
        · exact absurd rfl hload
        · rfl
      rw [hunit]
      omega
  rw [htable, UInt16.toNat_mul, hfactor, Nat.mod_eq_of_lt hsmall]
  unfold Sampled.interval
  rw [Int.natCast_mul]

/-- **The sweep is right** in every run for every meter with a row and an interval that
does not overflow. -/
theorem sweep_run {env : Platform} {mc : Machine} {c c' : Metering} {w : Nat} {m : Sampled}
    (h : Reach Starts (MeterStep env mc) c) (hs : MeterStep env mc c .sweep c') (hw : 1 ≤ w)
    (hw8 : w ≤ maxWellNum) (hm : m.Numbered) (hok : c.SweepOk env w m) :
    SweepsRight env c c' w m := by
  have hinv : c.Inv := h.invariant (P := Inv) (fun _ hc => hc.inv) fun _ _ _ hi ha =>
    inv_step hi ha
  cases hs with
  | sweep =>
      intro a ha
      have hrow := congrArg Prod.snd
        (clearMeterRtdata_meter env hw hw8 hm hok.1 ha hinv.metered.room)
      unfold sweepView rowView at hrow
      dsimp only at hrow ⊢
      rw [hrow, interval_eq hinv hw hw8 hm hok, hinv.times w hw hw8 m hm hok.1]
      unfold clearRtdataCnt
      have hdue : c.rtu.time > m.interval env c.rtu w * 10 + c.since w m ↔
          c.rtu.time > c.since w m + 10 * m.interval env c.rtu w := by omega
      by_cases hd : c.rtu.time > c.since w m + 10 * m.interval env c.rtu w
      · rw [if_pos (hdue.2 hd), if_pos hd]
      · rw [if_neg fun h => hd (hdue.1 h), if_neg hd]

/-! ### An interval that overflows -/

/-- A unit whose registers all hold the word. -/
def meteredUnit (v : UInt16) : Rtu :=
  .start { emptyMap 1901 (fun _ => 0) (fun _ => 0) with ramX := fun _ => v }

/-- The same some time after the load meter's report. -/
def laterUnit (v : UInt16) (time : Int) : Rtu :=
  { meteredUnit v with
    time := time
    meterSampleTime := (analysisZigbeeRcvData (.bare fun _ => none) zeroMachine (routineFrame 1 1)
      (meteredUnit v)).2.meterSampleTime }

theorem meteredUnit_metered (v : UInt16) : (meteredUnit v).map.Metered :=
  ⟨Nat.le_refl _, fun _ => .inl rfl⟩

/-- The unit after the report and a while. -/
def laterMetering (v : UInt16) (time : Int) : Metering :=
  ⟨laterUnit v time, fun w m => if reportOf (routineFrame 1 1) = some (w, m) then some 0 else none,
    fun _ _ => 0⟩

theorem laterMetering_reach {v : UInt16} {time : Int} (ht : 0 ≤ time) :
    Reach Starts (MeterStep (.bare fun _ => none) zeroMachine) (laterMetering v time) := by
  have hstart : Reach Starts (MeterStep (.bare fun _ => none) zeroMachine)
      ⟨meteredUnit v, fun _ _ => none, fun _ _ => 0⟩ :=
    .start ⟨_, meteredUnit_metered v, rfl⟩
  have hreport := hstart.step (.frame (routineFrame 1 1))
  have htime := analysis_time (.bare fun _ => none) zeroMachine (routineFrame 1 1) (meteredUnit v)
  refine hreport.step (.elsewhere (s := laterUnit v time) ?_ (meteredUnit_metered v) ?_)
  · dsimp only
    rw [htime]
    exact ht
  · unfold laterUnit
    dsimp only

/-- A load meter with an interval of 1093 minutes, 500 seconds after its report. -/
theorem not_sweep_run : ¬ ∀ (env : Platform) (mc : Machine) (c c' : Metering),
    Reach Starts (MeterStep env mc) c → MeterStep env mc c .sweep c' →
    ∀ w, 1 ≤ w → w ≤ maxWellNum → ∀ m : Sampled, m.Numbered → (c.lastReport w m).isSome →
    SweepsRight env c c' w m := by
  intro h
  have hkept := h _ _ (laterMetering 1093 500) _ (laterMetering_reach (by decide)) .sweep 1
    (by decide) (by decide) (.meter .load) trivial (by decide) 0 (by decide)
  have hcleared : (clearMeterRtdata (.bare fun _ => none) (laterMetering 1093 500).rtu).map.ramX
      ((laterMetering 1093 500).rtu.map.xBase 1 + ((Sampled.meter .load).addr + 0)) = 0xFFFF := by
    decide +kernel
  have hwindow : ¬ (laterMetering 1093 500).rtu.time
      > (laterMetering 1093 500).since 1 (.meter .load) +
        10 * Sampled.interval (.bare fun _ => none) (laterMetering 1093 500).rtu 1
          (.meter .load) := by
    decide +kernel
  have hword : (laterMetering 1093 500).rtu.map.ramX
      ((laterMetering 1093 500).rtu.map.xBase 1 + ((Sampled.meter .load).addr + 0)) ≠ 0xFFFF := by
    decide +kernel
  rw [if_neg hwindow] at hkept
  dsimp only at hkept
  rw [hcleared] at hkept
  exact hword hkept.symm

/-- The same with ten minutes. -/
theorem laterMetering_sweepsRight :
    SweepsRight (.bare fun _ => none) (laterMetering 10 500)
      { laterMetering 10 500 with
        rtu := clearMeterRtdata (.bare fun _ => none) (laterUnit 10 500)
        lastClear := fun w m =>
          if Clears (.bare fun _ => none) (laterUnit 10 500) w m then 500 else 0 } 1
      (.meter .load) :=
  sweep_run (laterMetering_reach (by decide)) .sweep (by decide) (by decide) trivial
    ⟨fun ⟨_, hf⟩ => by simp at hf, fun _ => by decide +kernel⟩

end Metering

end RtuA118
