import RtuA118.Data.Retrieval
import RtuA118.Map.WriteOutlook
import RtuA118.Modbus.Reply

/-!
# RtuA118.Data.Compaction

**A record in registers**, and read back from them.

A record has a word for each internal cell of its well; `map_modbus_write_data_registers` keeps
those of the marked cells and puts them side by side. `dataWriteLoop_eq` is what its three
counters come to. Here the whole call is put together with a read of the registers that it
wrote.
-/

namespace RtuA118

section Compaction

variable {env : Platform} {s : Rtu} {w addr len : Nat} {bigL : Bool}

/-- The words of a record that are kept, in the order of their cells. -/
def recordedWords (m : MapT) (w len : Nat) (buf : Nat → UInt16) : List UInt16 :=
  (recordCells m w len).map buf

theorem recordedWords_length_le (m : MapT) (w len : Nat) (buf : Nat → UInt16) :
    (recordedWords m w len buf).length ≤ len := by
  rw [recordedWords, List.length_map]
  exact recordCells_length_le m w len

theorem mapModbusWriteDataRegisters_of_pos (hw : 1 ≤ w) (hw8 : w ≤ maxWellNum) (hn : 1 ≤ len)
    (hend : addr + len ≤ maxRegisterNum) (buf : Nat → UInt16) :
    mapModbusWriteDataRegisters buf len w addr bigL s =
      (0, s.onMap (·.putRamY w addr ((recordedWords s.map w len buf).map (orderWord bigL)))) := by
  unfold maxWellNum at hw8
  unfold maxRegisterNum at hend
  unfold mapModbusWriteDataRegisters
  rw [if_pos (registerArgsOk_iff.2 (by omega))]
  simp only [Int.toNat_natCast]
  rw [dataWriteLoop_eq, recordedWords, List.map_map]
  rfl

/-- An empty record is refused. -/
theorem mapModbusWriteDataRegisters_zero (buf : Nat → UInt16) :
    mapModbusWriteDataRegisters buf (0 : Nat) w addr bigL s = (-1, s) := by
  unfold mapModbusWriteDataRegisters
  rw [if_neg fun hok => absurd (registerArgsOk_iff.1 hok) (by omega)]

/-- Stored words read back in the order in which they were stored, in either order of bytes. -/
theorem modbusReadLoop_putRamY {vs : List UInt16}
    (hnull : ∀ k < vs.length, s.map.ramYMapType (yBase w + (addr + k)) = .null) :
    ∀ {n k : Nat} {rc : UInt16}, k + n = vs.length →
      modbusReadLoop env (s.onMap (·.putRamY w addr (vs.map (orderWord bigL)))) w bigL n
        (addr + k) rc = vs.drop k := by
  intro n
  induction n with
  | zero =>
      intro k rc hk
      rw [modbusReadLoop, List.drop_eq_nil_of_le (by omega)]
  | succ n ih =>
      intro k rc hk
      have hlt : k < vs.length := by omega
      have hword : readRegister env (s.onMap (·.putRamY w addr (vs.map (orderWord bigL)))) rc w
          (addr + k) = (vs.map (orderWord bigL)).getD k 0 :=
        readRegister_putRamY_of_mem (by simpa using hlt) (hnull k hlt)
      rw [modbusReadLoop, hword, Nat.add_assoc, ih (by omega), List.drop_eq_getElem_cons hlt]
      simp [hlt, orderWord_orderWord]

/-- **A record is compacted.** Its marked words come to stand side by side from the address on,
in the order of their cells, nothing else of the map changes, and the registers read back as
these words. -/
theorem record_compacted (hw : 1 ≤ w) (hw8 : w ≤ maxWellNum) (hend : addr + len ≤ maxRegisterNum)
    (buf : Nat → UInt16) :
    let words := recordedWords s.map w len buf
    let stored := mapModbusWriteDataRegisters buf len w addr bigL s
    stored.1 = (if len = 0 then -1 else 0) ∧
      stored.2 = s.onMap (·.putRamY w addr (words.map (orderWord bigL))) ∧
      (words ≠ [] →
        (∀ k < words.length, s.map.ramYMapType (yBase w + (addr + k)) = .null) →
        mapModbusReadRegisters env stored.2 words.length w addr bigL = some words) := by
  dsimp only
  rcases Nat.eq_zero_or_pos len with rfl | hn
  · rw [mapModbusWriteDataRegisters_zero]
    refine ⟨rfl, ?_, fun hne _ => absurd rfl hne⟩
    simp [recordedWords, recordCells, MapT.putRamY, Rtu.onMap]
  · rw [mapModbusWriteDataRegisters_of_pos hw hw8 hn hend]
    refine ⟨(if_neg (by omega)).symm, rfl, fun hne hnull => ?_⟩
    have hpos := List.length_pos_of_ne_nil hne
    have hle := recordedWords_length_le s.map w len buf
    rw [mapModbusReadRegisters_of_ok hw hw8 hpos (by omega)]
    exact congrArg some (modbusReadLoop_putRamY hnull (Nat.zero_add _))

end Compaction

/-- A unit that records every second cell. -/
def secondCellsUnit : Rtu :=
  .start { emptyMap 300 (fun _ => 0) (fun _ => 0) with
    ramXMapRecord := fun r => if r % 2 = 1 then .record else .null }

/-- Of the words 10, 11, 12 and 13 two are kept, and read back. -/
theorem secondCells_compacted :
    mapModbusReadRegisters (.bare fun _ => none)
      (mapModbusWriteDataRegisters (fun k => UInt16.ofNat (k + 10)) 4 1 7019 true secondCellsUnit).2
      2 1 7019 true = some [11, 13] :=
  (record_compacted (by decide) (by decide) (by decide)
    fun k => UInt16.ofNat (k + 10)).2.2 (by decide) (by decide)

end RtuA118
