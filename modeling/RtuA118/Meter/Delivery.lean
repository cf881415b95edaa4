import RtuA118.Map.Frame
import RtuA118.Meter.Kind

/-!
# RtuA118.Meter.Delivery

A **reading's way** from a meter to a master. Its four bytes arrive high byte first,
are turned into a `float` and turned again for the store, land in two cells, are found
there through the mapped registers, and leave high byte first: `reading_delivered`
says they leave as they came.

Three things keep a reading of a routine packet from its cells: a number the decoder
has no place for, a store that does not fit into the block as a whole, and a flash
cell before it in the same store whose `msync` fails.
-/

namespace RtuA118

open Run (Steps)

/-! ### The readings of a packet -/

/-- The stores of readings in a meter's routine packet: the first cell, and the offsets of
the readings in the packet. -/
def Meter.readings : Meter → List (Nat × List Nat)
  | .pressure n => [(oilPressureRtdataAddr + (n - 1) * oilPressureSize, [16])]
  | .temperature => [(temperatureRtdataAddr, [16])]
  | .torqueSpeedLoad => [(stlSpeedRtdataAddr, [24, 16, 20])]
  | .flowMeter n =>
    [(actuatorTotalFlowAddr + 15 * (n - 1), [16]), (actuatorFlowRateAddr + 15 * (n - 1), [20])]
  | .load => [(loadLoadRtdataAddr, [20, 16])]
  | .electricalParam =>
    [(elecCurrentRtdataAddr, [16, 20, 24, 28, 32, 36]), (elecPowerFactorRtdataAddr, [40]),
      (elecActivePowerRateRtdataAddr, [44]), (elecReactivePowerRateRtdataAddr, [48])]

/-- The words of the readings at the offsets. -/
def readingWords (p : Nat → UInt8) (offs : List Nat) : List UInt16 :=
  offs.flatMap fun k => (storedFloat (fp32At p k)).words

theorem readingWords_length (p : Nat → UInt8) (offs : List Nat) :
    (readingWords p offs).length = 2 * offs.length := by
  induction offs with
  | nil => rfl
  | cons k offs ih =>
      unfold readingWords at ih ⊢
      rw [List.flatMap_cons, List.length_append, ih, Fp32.words_length, List.length_cons]
      omega

/-- The words of the `j`-th reading: its bytes in pairs, each pair turned. -/
theorem readingWords_getD (p : Nat → UInt8) (d : UInt16) : ∀ {offs : List Nat} {j : Nat},
    j < offs.length →
    (readingWords p offs).getD (2 * j) d
        = wordOfBytes (fp32At p (offs.getD j 0)).b1 (fp32At p (offs.getD j 0)).b0 ∧
      (readingWords p offs).getD (2 * j + 1) d
        = wordOfBytes (fp32At p (offs.getD j 0)).b3 (fp32At p (offs.getD j 0)).b2 := by
  intro offs
  induction offs with
  | nil => intro j hj; exact absurd hj (Nat.not_lt_zero j)
  | cons k offs ih =>
      intro j hj
      cases j with
      | zero => exact ⟨rfl, rfl⟩
      | succ j => exact ih (Nat.lt_of_succ_lt_succ hj)

@[simp] theorem covers_storeReadings {p : Nat → UInt8} {addr i : Nat} {offs : List Nat} :
    (storeReadings p addr offs).Covers i ↔ addr ≤ i ∧ i < addr + 2 * offs.length := by
  rw [← readingWords_length p]
  exact Iff.rfl

/-- The store of the words is among the packet's calls, and no later call covers its
cells. -/
structure StoresLast (mc : Machine) (p : Nat → UInt8) (addr : Nat) (words : List UInt16) :
    Prop where
  group : GroupOk p
  split : ∃ pre post, packetCalls mc p = pre ++ .store addr words :: post ∧
    ∀ c ∈ post, ∀ k < words.length, ¬ c.Covers (addr + k)

theorem storesLast_of_routine (mc : Machine) {p : Nat → UInt8} {m : Meter} {addr : Nat}
    {offs : List Nat} (h : kindOf p = some (.routine m)) (hr : (addr, offs) ∈ m.readings) :
    StoresLast mc p addr (readingWords p offs) := by
  refine ⟨(kindOf_tested h).1, ?_⟩
  rw [packetCalls_of_kind h]
  -- each routine stores its readings last, after its answer and its sample time
  cases m with
  | pressure n =>
      obtain ⟨rfl, rfl⟩ := Prod.mk.inj (List.mem_singleton.1 hr)
      refine ⟨[_, _, _], [_], rfl, fun c hc k hk => ?_⟩
      obtain rfl := List.mem_singleton.1 hc
      rw [readingWords_length] at hk
      simp at hk ⊢
      omega
  | temperature =>
      obtain ⟨rfl, rfl⟩ := Prod.mk.inj (List.mem_singleton.1 hr)
      refine ⟨[_, _, _], [_], rfl, fun c hc k hk => ?_⟩
      obtain rfl := List.mem_singleton.1 hc
      rw [readingWords_length] at hk
      simp at hk ⊢
      omega
  | torqueSpeedLoad =>
      obtain ⟨rfl, rfl⟩ := Prod.mk.inj (List.mem_singleton.1 hr)
      refine ⟨[_, _, _], [_], rfl, fun c hc k hk => ?_⟩
      obtain rfl := List.mem_singleton.1 hc
      rw [readingWords_length] at hk
      simp at hk ⊢
      omega
  | flowMeter n =>
      simp only [Meter.readings, List.mem_cons, List.not_mem_nil, or_false, Prod.mk.injEq] at hr
      rcases hr with ⟨rfl, rfl⟩ | ⟨rfl, rfl⟩
      · -- the rate is stored behind the total, in cells of its own
        refine ⟨[_, _], [_], rfl, fun c hc k hk => ?_⟩
        obtain rfl := List.mem_singleton.1 hc
        rw [readingWords_length] at hk
        simp at hk ⊢
        omega
      · exact ⟨[_, _, _], [], rfl, fun c hc => absurd hc List.not_mem_nil⟩
  | load =>
      obtain ⟨rfl, rfl⟩ := Prod.mk.inj (List.mem_singleton.1 hr)
      exact ⟨[_, _, _], [], rfl, fun c hc => absurd hc List.not_mem_nil⟩
  | electricalParam =>
      simp only [Meter.readings, List.mem_cons, List.not_mem_nil, or_false, Prod.mk.injEq] at hr
      rcases hr with ⟨rfl, rfl⟩ | ⟨rfl, rfl⟩ | ⟨rfl, rfl⟩ | ⟨rfl, rfl⟩
      · refine ⟨[_, _, _], [_, _, _, _, _, _], rfl, fun c hc k hk => ?_⟩
        rw [readingWords_length] at hk
        simp only [List.mem_cons, List.not_mem_nil, or_false] at hc
        rcases hc with rfl | rfl | rfl | rfl | rfl | rfl <;> simp at hk ⊢ <;> omega
      · refine ⟨[_, _, _, _], [_, _, _, _, _], rfl, fun c hc k hk => ?_⟩
        rw [readingWords_length] at hk
        simp only [List.mem_cons, List.not_mem_nil, or_false] at hc
        rcases hc with rfl | rfl | rfl | rfl | rfl <;> simp at hk ⊢ <;> omega
      · refine ⟨[_, _, _, _, _], [_, _, _, _], rfl, fun c hc k hk => ?_⟩
        rw [readingWords_length] at hk
        simp only [List.mem_cons, List.not_mem_nil, or_false] at hc
        rcases hc with rfl | rfl | rfl | rfl <;> simp at hk ⊢ <;> omega
      · refine ⟨[_, _, _, _, _, _], [_, _, _], rfl, fun c hc k hk => ?_⟩
        rw [readingWords_length] at hk
        simp only [List.mem_cons, List.not_mem_nil, or_false] at hc
        rcases hc with rfl | rfl | rfl <;> simp at hk ⊢ <;> omega

/-! ### A frame's calls and the map -/

section Frame

variable (env : Platform) (mc : Machine) (q : Nat → UInt8) (s : Rtu)

theorem analysis_eq {q : Nat → UInt8} (hid : q 3 = zigbeeRcvDataFramid) :
    (analysisZigbeeRcvData env mc q s).2
      = runCalls env mc (originOf q) (packetCalls mc (packetOf q)) s := by
  unfold analysisZigbeeRcvData
  rw [if_neg (not_not.2 hid)]

theorem analysis_other {q : Nat → UInt8} (hid : q 3 ≠ zigbeeRcvDataFramid) :
    (analysisZigbeeRcvData env mc q s).2 = s := by
  unfold analysisZigbeeRcvData
  rw [if_pos hid]

theorem analysis_tables : (analysisZigbeeRcvData env mc q s).2.map.tables = s.map.tables := by
  unfold analysisZigbeeRcvData
  split
  · rfl
  · exact runCalls_tables fun c hc => (packetCalls_from c hc).mono (by decide)

end Frame

/-! ### Reports in between -/

section Past

variable {env : Platform} {mc : Machine} {o : Origin} {cb rb n : Nat}

/-- A call away from the window. -/
theorem MeterCall.run_past {c : MeterCall} {s : Rtu} (hfrom : c.From 1)
    (hout : ∀ i, c.Covers i → ∀ k < n, s.map.xBase o.group.toNat + i ≠ cb + k) :
    StepsPast env cb rb n s (c.run env mc o s) := by
  rcases MeterCall.run_cases env mc o c s with ⟨addr, words, hrun, hcovers, hge⟩ | ⟨hmap, -⟩
  · rw [hrun, writeWords_eq]
    split
    · rename_i hargs
      obtain ⟨h8, h1, -, -, hlen⟩ := cellArgsOk_iff.1 hargs
      have h8' : (maxWellNum : Int) = 8 := rfl
      refine writeCells_past (by omega) (by omega) (hge 1 hfrom) (by omega) fun k hk hin => ?_
      obtain ⟨d, hd⟩ := Nat.exists_eq_add_of_le hin.1
      refine hout (addr + d) ((hcovers _).2 ⟨Nat.le_add_right _ _, ?_⟩) k hk ?_
      · omega
      · omega
    · exact .refl
  · exact Steps.one (a := .elsewhere) ⟨fun k _ => ⟨fun h => h, fun h => h⟩, .elsewhere hmap⟩

theorem runCalls_past : ∀ {cs : List MeterCall} {s : Rtu}, (∀ c ∈ cs, c.From 1) →
    (∀ c ∈ cs, ∀ i, c.Covers i → ∀ k < n, s.map.xBase o.group.toNat + i ≠ cb + k) →
    StepsPast env cb rb n s (runCalls env mc o cs s) := by
  intro cs
  induction cs with
  | nil => intro s _ _; exact .refl
  | cons c cs ih =>
      intro s hfrom hout
      have ht : (c.run env mc o s).map.tables = s.map.tables :=
        MeterCall.run_tables (hfrom c List.mem_cons_self)
      rw [runCalls_cons]
      refine (MeterCall.run_past (hfrom c List.mem_cons_self) (hout c List.mem_cons_self)).trans
        (ih (fun d hd => hfrom d (List.mem_cons_of_mem _ hd)) fun d hd i hi => ?_)
      rw [xBase_eq_of_tables ht]
      exact hout d (List.mem_cons_of_mem _ hd) i hi

/-- **A report that covers no cell of the window is a run past it.** -/
theorem analysis_past {q : Nat → UInt8} {s : Rtu}
    (hout : ∀ c ∈ packetCalls mc (packetOf q), ∀ i, c.Covers i →
      ∀ k < n, s.map.xBase (sensorGroup (packetOf q)).toNat + i ≠ cb + k) :
    StepsPast env cb rb n s (analysisZigbeeRcvData env mc q s).2 := by
  unfold analysisZigbeeRcvData
  split
  · exact .refl
  · exact runCalls_past (fun c hc => (packetCalls_from c hc).mono (by decide)) hout

end Past

/-! ### Delivery -/

section Stored

variable (env : Platform) {mc : Machine} {q : Nat → UInt8} {s : Rtu} {addr j : Nat}

/-- A word of a last store is in its cell right after the report. -/
theorem StoresLast.stored {words : List UInt16} {k : Nat}
    (h : StoresLast mc (packetOf q) addr words) (hid : q 3 = zigbeeRcvDataFramid)
    (hfit : addr + words.length ≤ s.map.xMax) (hk : k < words.length)
    (hgo : ∀ i < k, Goes env s.map (s.map.xBase (sensorGroup (packetOf q)).toNat + (addr + i)))
    (hram : s.map.ramXMapType (s.map.xBase (sensorGroup (packetOf q)).toNat + (addr + k)) = .ram) :
    (analysisZigbeeRcvData env mc q s).2.map.ramX
      (s.map.xBase (sensorGroup (packetOf q)).toNat + (addr + k)) = words.getD k 0 := by
  obtain ⟨⟨hg, hg8⟩, pre, post, hcalls, hlast⟩ := h
  have hfrom : ∀ c ∈ pre ++ .store addr words :: post, c.From 300 := hcalls ▸ packetCalls_from
  have haddr : 300 ≤ addr := hfrom (.store addr words) (by simp)
  rw [analysis_eq env mc s hid, hcalls]
  exact runCalls_stored (fun c hc => (hfrom c (List.mem_append_left _ hc)).mono (by decide))
    (fun c hc => (hfrom c (by simp [hc])).mono (by decide)) (by omega) hg
    (Nat.le_of_lt_succ hg8) hfit hk hgo (.inr hram) fun c hc => hlast c hc k hk

/-- A reading is in its two cells right after the report. -/
theorem reading_stored {m : Meter} {offs : List Nat} (mc : Machine)
    (hid : q 3 = zigbeeRcvDataFramid) (hkind : kindOf (packetOf q) = some (.routine m))
    (hr : (addr, offs) ∈ m.readings) (hj : j < offs.length)
    (hfit : addr + 2 * offs.length ≤ s.map.xMax)
    (hgo : ∀ i < 2 * j,
      Goes env s.map (s.map.xBase (sensorGroup (packetOf q)).toNat + (addr + i)))
    (hram : ∀ k < 2, s.map.ramXMapType
      (s.map.xBase (sensorGroup (packetOf q)).toNat + (addr + 2 * j + k)) = .ram) :
    let f := fp32At (packetOf q) (offs.getD j 0)
    let cell := s.map.xBase (sensorGroup (packetOf q)).toNat + (addr + 2 * j)
    (analysisZigbeeRcvData env mc q s).2.map.ramX cell = wordOfBytes f.b1 f.b0 ∧
      (analysisZigbeeRcvData env mc q s).2.map.ramX (cell + 1) = wordOfBytes f.b3 f.b2 := by
  intro f cell
  have hlast := storesLast_of_routine mc hkind hr
  have hlen := readingWords_length (packetOf q) offs
  obtain ⟨hw0, hw1⟩ := readingWords_getD (packetOf q) 0 hj
  have h0 := hram 0 (by decide)
  have h1 := hram 1 (by decide)
  rw [Nat.add_zero] at h0
  refine ⟨(hlast.stored env hid (by omega) (by omega) hgo h0).trans hw0,
    (hlast.stored env hid (by omega) (by omega) (fun i hi => ?_) h1).trans hw1⟩
  -- before the second word comes the first, which is a RAM cell
  rcases Nat.lt_succ_iff_lt_or_eq.1 hi with hi | rfl
  · exact hgo i hi
  · exact goes_of_ram h0

end Stored

/-- A big-endian read of the two registers of well `w` from `r` on has the four bytes. -/
def ReadsBack (env : Platform) (s : Rtu) (w r : Nat) (f : Fp32) : Prop :=
  (mapModbusReadRegisters env s 2 w r true).map bytesOfWords = some f.bytes

instance (env : Platform) (s : Rtu) (w r : Nat) (f : Fp32) : Decidable (ReadsBack env s w r f) :=
  inferInstanceAs (Decidable (_ = _))

/-- **Delivery.** -/
theorem reading_delivered (env : Platform) (mc : Machine) (q : Nat → UInt8) (s s' : Rtu)
    (m : Meter) (addr j r : Nat) (offs : List Nat) (hid : q 3 = zigbeeRcvDataFramid)
    (hkind : kindOf (packetOf q) = some (.routine m)) (hr : (addr, offs) ∈ m.readings)
    (hj : j < offs.length) (hfit : addr + 2 * offs.length ≤ s.map.xMax)
    (hgo : ∀ i < 2 * j,
      Goes env s.map (s.map.xBase (sensorGroup (packetOf q)).toNat + (addr + i)))
    (hmap : MappedRam s.map (sensorGroup (packetOf q)).toNat r (addr + 2 * j) 2)
    (hrun : StepsPast env (s.map.xBase (sensorGroup (packetOf q)).toNat + (addr + 2 * j))
      (yBase (sensorGroup (packetOf q)).toNat + r) 2 (analysisZigbeeRcvData env mc q s).2 s') :
    ReadsBack env s' (sensorGroup (packetOf q)).toNat r (fp32At (packetOf q) (offs.getD j 0)) := by
  obtain ⟨hg, hg8⟩ := (storesLast_of_routine mc hkind hr).group
  obtain ⟨h0, h1⟩ := reading_stored env mc hid hkind hr hj hfit hgo hmap.ram
  have ht := analysis_tables env mc q s
  have hx := xBase_eq_of_tables ht (sensorGroup (packetOf q)).toNat
  have hmap' : MappedRam (analysisZigbeeRcvData env mc q s).2.map
      (sensorGroup (packetOf q)).toNat r (addr + 2 * j) 2 := hmap.of_tables ht
  rw [← hx] at hrun h0 h1
  obtain ⟨hlater, hsame⟩ := hmap'.run (by decide) hrun
  unfold ReadsBack
  rw [show (2 : Int) = ((2 : Nat) : Int) from rfl,
    mapModbusReadRegisters_of_mapped hg (Nat.le_of_lt_succ hg8) (by decide) hlater]
  have hw0 := (hsame 0 (by decide)).trans h0
  have hw1 := (hsame 1 (by decide)).trans h1
  rw [Nat.add_zero] at hw0
  simp [List.range_succ, hw0, hw1, orderWord, Fp32.bytes]

/-! ### Readings that are lost -/

/-- A frame with a routine packet of a meter of type `t`, group 1, number `n`; the bytes
of its readings are their own positions. -/
def routineFrame (t n : UInt8) : Nat → UInt8 := fun i =>
  if i = 3 then 0x91 else if i = 26 then t else if i = 27 then 1 else if i = 28 then n
  else if 37 ≤ i then UInt8.ofNat i else 0

/-- A unit whose registers lead to the cells from `a` on. -/
def leadingUnit (xMax a : Nat) (kinds : Nat → MapKind) : Rtu :=
  .start { emptyMap xMax (fun _ => 0) (fun _ => 0) with
    ramXMapType := kinds
    ramY := fun r => UInt16.ofNat (a + r)
    ramYMapType := fun _ => .ram }

/-- The torque of a torque-speed-load packet, behind the speed in the same store. -/
theorem torque_delivered :
    ReadsBack (.bare fun _ => none)
      (analysisZigbeeRcvData (.bare fun _ => none) zeroMachine (routineFrame 9 1)
        (leadingUnit 2000 590 fun _ => .ram)).2 1 0 (fp32At (packetOf (routineFrame 9 1)) 16) :=
  reading_delivered (.bare fun _ => none) zeroMachine (routineFrame 9 1)
    (leadingUnit 2000 590 fun _ => .ram) _ .torqueSpeedLoad 588 1 0 [24, 16, 20] rfl (by decide)
    (by decide) (by decide) (by decide) (fun _ _ => .inl fun _ => rfl)
    ⟨by decide, by decide, by decide, by decide, by decide⟩ .refl

/-- A block that ends behind the speed's cells; a flash cell before the acceleration's
whose `msync` fails; a second temperature meter. -/
theorem not_readings_delivered :
    (kindOf (packetOf (routineFrame 9 1)) = some (.routine .torqueSpeedLoad) ∧
        MappedRam (leadingUnit 590 588 fun _ => .ram).map 1 0 588 2 ∧
        ¬ ReadsBack (.bare fun _ => none)
          (analysisZigbeeRcvData (.bare fun _ => none) zeroMachine (routineFrame 9 1)
            (leadingUnit 590 588 fun _ => .ram)).2 1 0
          (fp32At (packetOf (routineFrame 9 1)) 24)) ∧
      (kindOf (packetOf (routineFrame 1 1)) = some (.routine .load) ∧
        MappedRam (leadingUnit 2000 666 fun b => if b = 664 then .flash2 else .ram).map 1 0 666 2 ∧
        ¬ ReadsBack { Platform.bare (fun _ => none) with msync := fun _ => false }
          (analysisZigbeeRcvData { Platform.bare (fun _ => none) with msync := fun _ => false }
            zeroMachine (routineFrame 1 1)
            (leadingUnit 2000 666 fun b => if b = 664 then .flash2 else .ram)).2 1 0
          (fp32At (packetOf (routineFrame 1 1)) 16)) ∧
      (sensorType (packetOf (routineFrame 3 2)) = meterTypeWlTemperature ∧
        dataTyped (packetOf (routineFrame 3 2)) = dataTypeRoutineData ∧
        MappedRam (leadingUnit 2000 516 fun _ => .ram).map 1 0 516 2 ∧
        ¬ ReadsBack (.bare fun _ => none)
          (analysisZigbeeRcvData (.bare fun _ => none) zeroMachine (routineFrame 3 2)
            (leadingUnit 2000 516 fun _ => .ram)).2 1 0
          (fp32At (packetOf (routineFrame 3 2)) 16)) := by
  refine ⟨⟨by decide, ?_, by decide⟩, ⟨by decide, ?_, by decide⟩,
    ⟨by decide, by decide, ?_, by decide⟩⟩ <;>
    exact ⟨by decide, by decide, by decide, by decide, by decide⟩

end RtuA118
