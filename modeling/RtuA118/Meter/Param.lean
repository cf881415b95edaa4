import RtuA118.Meter.Kind

/-!
# RtuA118.Meter.Param

Are a meter's parameters stored as received? Five decoders hand `st_meter_param`
to the store, 86 bytes or 43 words, as `(u16 *) &sensor_param`. But `sensor_param`
is itself a pointer, so what is stored is the memory from the **pointer variable**
on. The registers hold the packet exactly when that memory happens to.
-/

namespace RtuA118

/-! ### Parameter packets -/

/-- The block a valid parameter packet is for. -/
def paraAddr (p : Nat → UInt8) : Option Nat :=
  let n := (sensorNum p).toNat
  if protocolType p ≠ 0 ∨ dataTyped p ≠ dataTypeMeterPara ∨ ¬ GroupOk p then none
  else if sensorType p = meterTypeWlPressure then
    if n = 0 ∨ n > 3 then none else some (oilPressureMeterParaAddr + (n - 1) * oilPressureSize)
  else if sensorType p = meterTypeWlTemperature then some temperatureMeterParaAddr
  else if sensorType p = meterTypeWlIntergrationSpeedTorque then some stlMeterParaAddr
  else if sensorType p = meterTypeWlIntergrationLoad then
    if n = 1 then some loadMeterParaAddr else none
  else if sensorType p = meterTypeWlElectricity then
    if n = 1 then some elecMeterParaAddr else none
  else none

/-- Word `k` of the packet. -/
def packetWord (p : Nat → UInt8) (k : Nat) : UInt16 := wordOfBytes (p (2 * k)) (p (2 * k + 1))

/-- Cells of a well's block that live in `ram_x`. -/
structure RamCells (m : MapT) (w addr len : Nat) : Prop where
  fits : addr + len ≤ m.xMax
  ram : ∀ k < len, m.ramXMapType (m.xBase w + (addr + k)) = .ram

/-- The packet is in its registers, and nothing else of the map has changed. -/
structure ParamStored (p : Nat → UInt8) (addr : Nat) (s s' : Rtu) : Prop where
  stored : ∀ k < 43,
    s'.map.ramX (s.map.xBase (sensorGroup p).toNat + (addr + k)) = packetWord p k
  others : ∀ b, ¬ (s.map.xBase (sensorGroup p).toNat + addr ≤ b ∧
    b < s.map.xBase (sensorGroup p).toNat + addr + 43) → s'.map.ramX b = s.map.ramX b
  rest : s'.map = { s.map with ramX := s'.map.ramX }

/-! ### What the decoders store -/

theorem paramWords_length {mc : Machine} : (paramWords mc).length = 43 := by
  unfold paramWords
  rw [List.length_map, List.length_range]

theorem paramWords_getD {mc : Machine} {k : Nat} {d : UInt16} (hk : k < 43) :
    (paramWords mc).getD k d = packetWord mc.behindPointer k := by
  rw [List.getD_eq_getElem _ _ (by rw [paramWords_length]; exact hk)]
  unfold paramWords packetWord
  rw [List.getElem_map, List.getElem_range]

theorem kindOf_of_paraAddr {p : Nat → UInt8} {addr : Nat} (h : paraAddr p = some addr) :
    kindOf p = some (.para addr) := by
  unfold paraAddr at h
  dsimp only at h
  split at h
  · cases h
  rename_i hbad
  simp only [not_or, not_not] at hbad
  obtain ⟨hproto, hdata, hgroup⟩ := hbad
  have hroutine : dataTyped p ≠ dataTypeRoutineData := by
    rw [hdata]
    decide
  have hnum : (sensorNum p).toNat = 1 → sensorNum p = 1 := fun hn => UInt8.toNat_inj.mp hn
  unfold kindOf
  rw [if_neg (not_not.2 hproto)]
  split_ifs at h with h1 hn h2 h3 h5 hn h6 hn <;> obtain rfl := Option.some.inj h
  · rw [if_pos h1]
    unfold pressureKind
    dsimp only
    rw [if_neg hroutine, if_pos hdata, if_neg (not_not.2 hgroup), if_neg hn]
  · rw [if_neg h1, if_pos h2]
    unfold temperatureKind
    rw [if_neg hroutine, if_pos hdata, if_neg (not_not.2 hgroup)]
  · rw [if_neg h1, if_neg h2, if_pos h3]
    unfold torqueSpeedLoadKind
    rw [if_neg hroutine, if_pos hdata, if_neg (not_not.2 hgroup)]
  · rw [if_neg h1, if_neg h2, if_neg h3, if_neg (by simp [h5]), if_pos h5]
    unfold loadKind
    dsimp only
    rw [if_neg hroutine, if_pos (.inl hdata), if_neg (not_not.2 hgroup),
      if_neg (not_not.2 (hnum hn))]
  · rw [if_neg h1, if_neg h2, if_neg h3, if_neg (by simp [h6]), if_neg h5, if_pos h6]
    unfold electricalParamKind
    dsimp only
    rw [if_neg hroutine, if_pos hdata, if_neg (not_not.2 hgroup), if_neg (not_not.2 (hnum hn))]

/-- A valid parameter packet is one store. -/
theorem packetCalls_param (mc : Machine) {p : Nat → UInt8} {addr : Nat}
    (h : paraAddr p = some addr) :
    GroupOk p ∧ 1 ≤ addr ∧ packetCalls mc p = [saveParam mc addr] := by
  have hk : kindOf p = some (.para addr) := kindOf_of_paraAddr h
  obtain ⟨hgroup, -, haddr, -⟩ := kindOf_tested hk
  exact ⟨hgroup, by omega, packetCalls_of_kind hk⟩

/-- What a parameter packet does to the map. -/
theorem analysis_param (env : Platform) (mc : Machine) {q : Nat → UInt8} {s : Rtu} {addr : Nat}
    (hid : q 3 = zigbeeRcvDataFramid) (haddr : paraAddr (packetOf q) = some addr)
    (hram : RamCells s.map (sensorGroup (packetOf q)).toNat addr 43) :
    (analysisZigbeeRcvData env mc q s).2.map = { s.map with
      ramX := Store.put (s.map.xBase (sensorGroup (packetOf q)).toNat + addr) (paramWords mc)
        s.map.ramX } := by
  obtain ⟨⟨hg, hg8⟩, -, hcalls⟩ := packetCalls_param mc haddr
  have hw : writeWords env (sensorGroup (packetOf q)).toNat addr (paramWords mc) s = _ :=
    writeWords_of_ram hg (Nat.le_of_lt_succ hg8) (by rw [paramWords_length]; decide)
      (by rw [paramWords_length]; exact hram.fits)
      fun j hj => .inr (hram.ram j (by rwa [paramWords_length] at hj))
  unfold analysisZigbeeRcvData
  rw [if_neg (not_not.2 hid), hcalls]
  exact congrArg Rtu.map hw

/-! ### Stored as received -/

/-- Two runs of bytes have the same words exactly when they are the same bytes. -/
theorem packetWord_eq_iff {p p' : Nat → UInt8} :
    (∀ k < 43, packetWord p k = packetWord p' k) ↔ ∀ i < 86, p i = p' i := by
  constructor
  · intro h i hi
    obtain ⟨hlo, hhi⟩ := wordOfBytes_inj.1 (h (i / 2) (by omega))
    rcases Nat.mod_two_eq_zero_or_one i with h0 | h1
    · rwa [show 2 * (i / 2) = i by omega] at hlo
    · rwa [show 2 * (i / 2) + 1 = i by omega] at hhi
  · intro h k hk
    unfold packetWord
    rw [h _ (by omega), h _ (by omega)]

/-- A parameter packet is stored as received exactly when the memory from the pointer
variable on holds it. -/
theorem param_stored_iff (env : Platform) (mc : Machine) (q : Nat → UInt8) (s : Rtu) (addr : Nat)
    (hid : q 3 = zigbeeRcvDataFramid) (haddr : paraAddr (packetOf q) = some addr)
    (hram : RamCells s.map (sensorGroup (packetOf q)).toNat addr 43) :
    ParamStored (packetOf q) addr s (analysisZigbeeRcvData env mc q s).2 ↔
      ∀ i < 86, mc.behindPointer i = packetOf q i := by
  have hmap := analysis_param env mc hid haddr hram
  have hword : ∀ k < 43, (analysisZigbeeRcvData env mc q s).2.map.ramX
      (s.map.xBase (sensorGroup (packetOf q)).toNat + (addr + k))
        = packetWord mc.behindPointer k := by
    intro k hk
    rw [hmap, ← Nat.add_assoc]
    dsimp only
    rw [Store.put_of_lt 0 (by rw [paramWords_length]; exact hk), paramWords_getD hk]
  rw [← packetWord_eq_iff]
  constructor
  · intro h k hk
    rw [← hword k hk, h.stored k hk]
  · intro h
    refine ⟨fun k hk => (hword k hk).trans (h k hk), fun b hb => ?_, by rw [hmap]⟩
    rw [hmap]
    exact Store.put_of_not_mem (by rw [paramWords_length]; exact hb)

/-- A frame with a parameter packet of pressure meter 1 in group 1. -/
def paramFrame : Nat → UInt8 := fun i =>
  if i = 0 then 0x7E else if i = 2 then 104 else if i = 3 then 0x91 else if i = 26 then 2
  else if i = 27 then 1 else if i = 28 then 1 else if i = 30 then 0x10 else if i = 107 then 0x5A
  else 0

/-- A unit all of whose cells live in `ram_x`. -/
def ramUnit : Rtu :=
  .start { emptyMap 2000 (fun _ => 0) (fun _ => 0) with ramXMapType := fun _ => .ram }

theorem ramUnit_ramCells {w addr len : Nat} (h : addr + len ≤ 2000) :
    RamCells ramUnit.map w addr len := ⟨h, fun _ _ => rfl⟩

theorem paramFrame_stored_iff :
    ParamStored (packetOf paramFrame) 329 ramUnit
        (analysisZigbeeRcvData (.bare fun _ => none) zeroMachine paramFrame ramUnit).2 ↔
      ∀ i < 86, zeroMachine.behindPointer i = packetOf paramFrame i :=
  param_stored_iff (.bare fun _ => none) zeroMachine paramFrame ramUnit 329 rfl (by decide)
    (ramUnit_ramCells (by decide))

/-- With other memory there, other words are stored. -/
theorem not_param_stored :
    ¬ ∀ (env : Platform) (mc : Machine) (q : Nat → UInt8) (s : Rtu) (addr : Nat),
        q 3 = zigbeeRcvDataFramid → paraAddr (packetOf q) = some addr →
        RamCells s.map (sensorGroup (packetOf q)).toNat addr 43 →
        ParamStored (packetOf q) addr s (analysisZigbeeRcvData env mc q s).2 := by
  intro h
  have hstored := (h (.bare fun _ => none) zeroMachine paramFrame ramUnit 329 rfl (by decide)
    (ramUnit_ramCells (by decide))).stored 2 (by decide)
  rw [analysis_param _ _ rfl (show paraAddr (packetOf paramFrame) = some 329 by decide)
    (ramUnit_ramCells (by decide))] at hstored
  revert hstored
  decide

end RtuA118
