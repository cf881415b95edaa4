import RtuA118.Meter.FrameBytes

/-!
# RtuA118.Meter.Electrical

A **routine packet of the electrical meter**: eleven readings in six stores. Nine of
them pass the word swap once and leave as they came.

The other two do not. The swap loop covers `rcv_elect_data[0..9]`, so the reserve field
stays in the processor's order: it is stored that way, and it is added that way to the
energy, which is in the stored order by then. `electrical_routine_iff` says which packets
this does not show for.
-/

namespace RtuA118

/-! ### The eleven pairs -/

/-- What a routine packet of the electrical meter reports. -/
inductive ElectricalReading where
  /-- `ia`, `ib`, `ic`, `va`, `vb`, `vc`. -/
  | phase (i : Fin 6)
  | powerFactor
  | activePower
  | reactivePower
  | activeEnergy
  | reactiveEnergy
  deriving DecidableEq, Repr

namespace ElectricalReading

/-- The first of its two cells. -/
def cell : ElectricalReading → Nat
  | phase i => elecCurrentRtdataAddr + 2 * i
  | powerFactor => elecPowerFactorRtdataAddr
  | activePower => elecActivePowerRateRtdataAddr
  | reactivePower => elecReactivePowerRateRtdataAddr
  | activeEnergy => elecActivePowerRtdataAddr
  | reactiveEnergy => elecReactivePowerRtdataAddr

/-- The bytes a master is to read: those on the wire, and for the active energy those
of the sum. -/
def wire (mc : Machine) (p : Nat → UInt8) : ElectricalReading → Fp32
  | phase i => fp32At p (16 + 4 * i)
  | powerFactor => fp32At p 40
  | activePower => fp32At p 44
  | reactivePower => fp32At p 48
  | activeEnergy =>
    swapRcvFloatSeq (mc.fadd (swapRcvFloatSeq (fp32At p 52)) (swapRcvFloatSeq (fp32At p 56)))
  | reactiveEnergy => fp32At p 56

end ElectricalReading

/-- A routine packet of an electrical meter of a well the unit has. -/
structure ElectricalRoutine (p : Nat → UInt8) : Prop where
  protocol : protocolType p = 0
  type : sensorType p = meterTypeWlElectricity
  data : dataTyped p = dataTypeRoutineData
  group : GroupOk p

/-- The decoder takes the packets of the meter numbered 1. -/
theorem ElectricalRoutine.kindOf {p : Nat → UInt8} (h : ElectricalRoutine p) :
    kindOf p = if sensorNum p = 1 then some (.routine .electricalParam) else none := by
  have hgroup := h.group
  simp [RtuA118.kindOf, h.protocol, h.type, electricalParamKind, h.data, hgroup]

/-- Neither defect shows: the reserve is the same in both orders of its halves, and
with the halves of the energy exchanged the sum has its halves exchanged. -/
def EnergyUnharmed (mc : Machine) (p : Nat → UInt8) : Prop :=
  let energy := swapRcvFloatSeq (fp32At p 52)
  let reserve := swapRcvFloatSeq (fp32At p 56)
  swapStorFloatSeq reserve = reserve ∧
    mc.fadd (swapStorFloatSeq energy) reserve = swapStorFloatSeq (mc.fadd energy reserve)

instance (mc : Machine) (p : Nat → UInt8) : Decidable (EnergyUnharmed mc p) :=
  inferInstanceAs (Decidable (_ ∧ _))

/-! ### A float in two cells -/

theorem swapRcvFloatSeq_swapRcvFloatSeq (f : Fp32) : swapRcvFloatSeq (swapRcvFloatSeq f) = f := rfl

section Read

variable {env : Platform} {mc : Machine} {q : Nat → UInt8} {s : Rtu} {addr r : Nat} {f g : Fp32}

/-- What a big-endian read of two mapped cells has to find in them. -/
theorem readsBack_iff {w : Nat} (hw : 1 ≤ w) (hw8 : w ≤ maxWellNum)
    (hmap : MappedRam s.map w r addr 2) :
    ReadsBack env s w r f ↔ s.map.ramX (s.map.xBase w + addr) = wordOfBytes f.b1 f.b0 ∧
      s.map.ramX (s.map.xBase w + (addr + 1)) = wordOfBytes f.b3 f.b2 := by
  obtain ⟨v0, h0⟩ : ∃ v, v = s.map.ramX (s.map.xBase w + addr) := ⟨_, rfl⟩
  obtain ⟨v1, h1⟩ : ∃ v, v = s.map.ramX (s.map.xBase w + (addr + 1)) := ⟨_, rfl⟩
  have hwords : ReadsBack env s w r f ↔ bytesOfWords [swapInt16 v0, swapInt16 v1] = f.bytes := by
    unfold ReadsBack
    rw [show (2 : Int) = ((2 : Nat) : Int) from rfl,
      mapModbusReadRegisters_of_mapped hw hw8 (by decide) hmap]
    simp [List.range_succ, orderWord, ← h0, ← h1]
  rw [hwords, ← h0, ← h1, ← wordOfBytes_loByte_hiByte v0, ← wordOfBytes_loByte_hiByte v1]
  simp only [swapInt16_wordOfBytes, bytesOfWords_cons, bytesOfWords_nil, loByte_wordOfBytes,
    hiByte_wordOfBytes, wordOfBytes_inj, Fp32.bytes, List.cons.injEq, and_true]
  tauto

/-- **A float stored last** reads back as the wire bytes of the float with its halves
exchanged. -/
theorem StoresLast.readsBack_iff (env : Platform) (h : StoresLast mc (packetOf q) addr g.words)
    (hid : q 3 = zigbeeRcvDataFramid)
    (hmap : MappedRam s.map (sensorGroup (packetOf q)).toNat r addr 2) :
    ReadsBack env (analysisZigbeeRcvData env mc q s).2 (sensorGroup (packetOf q)).toNat r f ↔
      g = storedFloat f := by
  obtain ⟨hg, hg8⟩ := h.group
  have ht := analysis_tables env mc q s
  have hx := xBase_eq_of_tables ht (sensorGroup (packetOf q)).toNat
  have hram := hmap.ram 0 (by decide)
  rw [Nat.add_zero] at hram
  have h0 := h.stored env (k := 0) hid hmap.inBlock (Nat.succ_pos 1)
    (fun i hi => absurd hi (Nat.not_lt_zero i)) hram
  have h1 := h.stored env (k := 1) hid hmap.inBlock (Nat.lt_succ_self 1)
    (fun i hi => by rw [Nat.lt_one_iff.1 hi]; exact goes_of_ram hram) (hmap.ram 1 (by decide))
  rw [Nat.add_zero] at h0
  rw [RtuA118.readsBack_iff hg (Nat.le_of_lt_succ hg8) (hmap.of_tables ht), hx, h0, h1]
  cases g
  simp [Fp32.words, storedFloat, swapStorFloatSeq, swapRcvFloatSeq, wordOfBytes_inj, and_assoc]

end Read

/-! ### The packet's pairs -/

theorem phase_offset (i : Fin 6) : [16, 20, 24, 28, 32, 36].getD i.val 0 = 16 + 4 * i.val := by
  revert i
  decide

section Packet

variable (env : Platform) (mc : Machine) {q : Nat → UInt8} {s : Rtu}

/-- The energies' store: the sum of an energy in the stored order and a reserve in
the processor's. -/
theorem storesLast_activePower {p : Nat → UInt8}
    (h : kindOf p = some (.routine .electricalParam)) :
    StoresLast mc p elecActivePowerRtdataAddr
      (mc.fadd (storedFloat (fp32At p 52)) (swapRcvFloatSeq (fp32At p 56))).words := by
  refine ⟨(kindOf_tested h).1, ?_⟩
  rw [packetCalls_of_kind h]
  refine ⟨[_, _, _, _, _, _, _], [_, _], rfl, fun c hc k hk => ?_⟩
  simp only [List.mem_cons, List.not_mem_nil, or_false] at hc
  rcases hc with rfl | rfl <;> simp at hk ⊢ <;> omega

variable {r : ElectricalReading → Nat} (hid : q 3 = zigbeeRcvDataFramid)
  (hkind : kindOf (packetOf q) = some (.routine .electricalParam))
  (hmap : ∀ x, MappedRam s.map (sensorGroup (packetOf q)).toNat (r x) x.cell 2)

include hid hkind hmap

/-- Nine readings leave as they came. -/
theorem electrical_readings_delivered :
    ∀ x, x ≠ .activeEnergy → x ≠ .reactiveEnergy →
      ReadsBack env (analysisZigbeeRcvData env mc q s).2 (sensorGroup (packetOf q)).toNat (r x)
        (x.wire mc (packetOf q)) := by
  intro x hactive hreactive
  cases x with
  | phase i =>
      have hlast : elecCurrentRtdataAddr + 2 * 5 + 2 ≤ s.map.xMax := (hmap (.phase 5)).inBlock
      have h := reading_delivered env mc q s _ .electricalParam elecCurrentRtdataAddr i
        (r (.phase i)) [16, 20, 24, 28, 32, 36] hid hkind (by simp [Meter.readings]) i.isLt hlast
        (fun j hj => ?_) (hmap (.phase i)) .refl
      · rwa [phase_offset] at h
      · -- the cells before are those of the phases before
        have hram := (hmap (.phase ⟨j / 2, by omega⟩)).ram (j % 2) (by omega)
        refine goes_of_ram ?_
        have hj : ElectricalReading.cell (.phase ⟨j / 2, by omega⟩) + j % 2
            = elecCurrentRtdataAddr + j := by
          simp only [ElectricalReading.cell]
          omega
        rwa [hj] at hram
  | powerFactor =>
      exact reading_delivered env mc q s _ .electricalParam elecPowerFactorRtdataAddr 0 _ [40] hid
        hkind (by simp [Meter.readings]) (by decide) (hmap .powerFactor).inBlock
        (fun j hj => absurd hj (Nat.not_lt_zero j)) (hmap .powerFactor) .refl
  | activePower =>
      exact reading_delivered env mc q s _ .electricalParam elecActivePowerRateRtdataAddr 0 _ [44]
        hid hkind (by simp [Meter.readings]) (by decide) (hmap .activePower).inBlock
        (fun j hj => absurd hj (Nat.not_lt_zero j)) (hmap .activePower) .refl
  | reactivePower =>
      exact reading_delivered env mc q s _ .electricalParam elecReactivePowerRateRtdataAddr 0 _ [48]
        hid hkind (by simp [Meter.readings]) (by decide) (hmap .reactivePower).inBlock
        (fun j hj => absurd hj (Nat.not_lt_zero j)) (hmap .reactivePower) .refl
  | activeEnergy => exact absurd rfl hactive
  | reactiveEnergy => exact absurd rfl hreactive

/-- The energies leave as they should exactly when the reserve's order does not show. -/
theorem energies_delivered_iff :
    (ReadsBack env (analysisZigbeeRcvData env mc q s).2 (sensorGroup (packetOf q)).toNat
        (r .activeEnergy) (ElectricalReading.activeEnergy.wire mc (packetOf q)) ∧
      ReadsBack env (analysisZigbeeRcvData env mc q s).2 (sensorGroup (packetOf q)).toNat
        (r .reactiveEnergy) (ElectricalReading.reactiveEnergy.wire mc (packetOf q))) ↔
      EnergyUnharmed mc (packetOf q) := by
  rw [(storesLast_activePower mc hkind).readsBack_iff env hid (hmap .activeEnergy),
    (storesLast_reactivePower mc hkind).readsBack_iff env hid (hmap .reactiveEnergy)]
  simp only [ElectricalReading.wire, storedFloat, swapRcvFloatSeq_swapRcvFloatSeq, EnergyUnharmed]
  constructor
  · rintro ⟨hsum, hreserve⟩
    exact ⟨hreserve.symm, hsum⟩
  · rintro ⟨hreserve, hsum⟩
    exact ⟨hsum, hreserve.symm⟩

end Packet

/-- **A routine packet of the electrical meter**: all pairs read as the wire floats
exactly when neither defect shows, and after a packet of an unknown number exactly
when they did before. -/
theorem electrical_routine_iff (env : Platform) (mc : Machine) (q : Nat → UInt8) (s : Rtu)
    (r : ElectricalReading → Nat) (hid : q 3 = zigbeeRcvDataFramid)
    (hroutine : ElectricalRoutine (packetOf q))
    (hmap : ∀ x, MappedRam s.map (sensorGroup (packetOf q)).toNat (r x) x.cell 2) :
    (∀ x, ReadsBack env (analysisZigbeeRcvData env mc q s).2 (sensorGroup (packetOf q)).toNat (r x)
        (x.wire mc (packetOf q))) ↔
      if sensorNum (packetOf q) = 1 then EnergyUnharmed mc (packetOf q)
      else
        ∀ x, ReadsBack env s (sensorGroup (packetOf q)).toNat (r x) (x.wire mc (packetOf q)) := by
  have hkind := hroutine.kindOf
  split
  · rename_i hnum
    rw [if_pos hnum] at hkind
    rw [← energies_delivered_iff env mc hid hkind hmap]
    constructor
    · intro h
      exact ⟨h .activeEnergy, h .reactiveEnergy⟩
    · rintro ⟨hactive, hreactive⟩ x
      by_cases ha : x = .activeEnergy
      · rw [ha]
        exact hactive
      · by_cases hr : x = .reactiveEnergy
        · rw [hr]
          exact hreactive
        · exact electrical_readings_delivered env mc hid hkind hmap x ha hr
  · rename_i hnum
    rw [if_neg hnum] at hkind
    rw [analysis_eq env mc s hid, packetCalls_of_none hkind]
    rfl

/-! ### Two packets -/

/-- A unit whose first registers lead to the electrical meter's cells, in their order. -/
def electricalUnit : Rtu := leadingUnit 2000 elecCurrentRtdataAddr fun _ => .ram

/-- The register of a pair there. -/
def electricalRegister (x : ElectricalReading) : Nat := x.cell - elecCurrentRtdataAddr

theorem electricalUnit_mapped (x : ElectricalReading) :
    MappedRam electricalUnit.map 1 (electricalRegister x) x.cell 2 := by
  have hcell : 1252 ≤ x.cell ∧ x.cell ≤ 1274 := by
    cases x <;> simp [ElectricalReading.cell]
    omega
  refine ⟨show x.cell + 2 ≤ 2000 by omega, ?_, fun k _ => rfl, fun k _ => rfl, fun k hk => ?_⟩
  · simp only [electricalRegister, elecCurrentRtdataAddr, maxRegisterNum]
    omega
  · have hreg : elecCurrentRtdataAddr + (yBase 1 + (electricalRegister x + k)) = x.cell + k := by
      simp only [electricalRegister, elecCurrentRtdataAddr, yBase]
      omega
    simp only [MapT.cellOf, electricalUnit, leadingUnit, Rtu.start, hreg, UInt16.toNat_ofNat']
    omega

/-- A packet of the electrical meter without a reserve. -/
def withoutReserve : Nat → UInt8 := fun i => if 77 ≤ i ∧ i < 81 then 0 else routineFrame 4 1 i

/-- With a processor whose sum is its first operand. -/
theorem electrical_withoutReserve :
    (∀ x, ReadsBack (.bare fun _ => none)
        (analysisZigbeeRcvData (.bare fun _ => none) zeroMachine withoutReserve electricalUnit).2 1
        (electricalRegister x) (x.wire zeroMachine (packetOf withoutReserve))) ↔
      if sensorNum (packetOf withoutReserve) = 1 then
        EnergyUnharmed zeroMachine (packetOf withoutReserve)
      else ∀ x, ReadsBack (.bare fun _ => none) electricalUnit 1 (electricalRegister x)
        (x.wire zeroMachine (packetOf withoutReserve)) :=
  electrical_routine_iff (.bare fun _ => none) zeroMachine withoutReserve electricalUnit
    electricalRegister rfl ⟨by decide, by decide, by decide, by decide⟩ electricalUnit_mapped

/-- A reserve field of four different bytes. -/
theorem not_electrical_routine_delivered : ¬ ∀ (env : Platform) (mc : Machine) (q : Nat → UInt8)
    (s : Rtu) (r : ElectricalReading → Nat), q 3 = zigbeeRcvDataFramid →
    ElectricalRoutine (packetOf q) → sensorNum (packetOf q) = 1 →
    (∀ x, MappedRam s.map (sensorGroup (packetOf q)).toNat (r x) x.cell 2) →
    ∀ x, ReadsBack env (analysisZigbeeRcvData env mc q s).2 (sensorGroup (packetOf q)).toNat (r x)
      (x.wire mc (packetOf q)) := by
  intro h
  have hread := h (.bare fun _ => none) zeroMachine (routineFrame 4 1) electricalUnit
    electricalRegister rfl ⟨by decide, by decide, by decide, by decide⟩ rfl electricalUnit_mapped
    .reactiveEnergy
  revert hread
  decide

end RtuA118
