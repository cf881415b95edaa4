import RtuA118.Lib.Crc
import RtuA118.Modbus.RequestBytes

/-!
# RtuA118.Tools.Crc

The CRC-16 of the tools: by the tables of `rtu_crc.py`, and bit by bit in the slave of
`demo_modbus_rtu.py`.

The tables are those of the unit. What they call the high byte of the CRC is its low byte, which
comes first on the wire: `registerOf`.
-/

namespace RtuA118

/-! ### The three programs -/

namespace RtuCrc

/-- A turn of the loop, with the registers `crc_hi` and `crc_lo`. -/
def crc16Step (crc : Nat × Nat) (v : UInt8) : Nat × Nat :=
  let i := crc.1 ^^^ v.toNat
  ((crc.2 ^^^ tableCrcHi[i]!.toNat) &&& 0xFF, tableCrcLo[i]!.toNat &&& 0xFF)

/-- `crc16` of `rtu_crc.py`. -/
def crc16 (buffer : List UInt8) : Nat :=
  let crc := buffer.foldl crc16Step (0xFF, 0xFF)
  crc.1 <<< 8 ||| crc.2

end RtuCrc

namespace DemoModbusRtu

/-- The loop over the eight bits: `a` after `n` turns of it. -/
def crc16Bits (b : Nat) : Nat → Nat → Nat
  | 0, a => a
  | n + 1, a =>
      let last := a % 2
      let a := a >>> 1
      crc16Bits b n (if last = 1 then a ^^^ b else a)

/-- `a` after the bytes of a message. -/
def crc16Loop (x : List UInt8) : Nat :=
  x.foldl (fun a byte => crc16Bits 0xA001 8 (a ^^^ byte.toNat)) 0xFFFF

/-- `crc16` of `demo_modbus_rtu.py`: its low byte first. -/
def crc16 (x : List UInt8) : Nat × Nat :=
  let a := crc16Loop x
  (a &&& 0xFF, (a >>> 8) &&& 0xFF)

end DemoModbusRtu

/-- `rtu_crc16`. -/
def rtuCrc16 (buffer : List UInt8) : UInt16 :=
  let crc := crc16 buffer
  crc.1.toUInt16 <<< 8 ||| crc.2.toUInt16

/-! ### The tables -/

/-- The register of sixteen bits that the two bytes stand for. -/
def registerOf (crc : UInt8 × UInt8) : Nat := crc.2.toNat <<< 8 ^^^ crc.1.toNat

/-- An entry of both tables. -/
def crcTable (i : Nat) : Nat := registerOf (tableCrcHi[i]!, tableCrcLo[i]!)

theorem crc16Bits_eq (b n a : Nat) :
    DemoModbusRtu.crc16Bits b n a = (Crc.shiftStep b)^[n] a := by
  induction n generalizing a with
  | zero => rfl
  | succ n ih =>
      rw [Function.iterate_succ_apply, ← ih]
      rfl

theorem crcTables_size : tableCrcHi.size = 256 ∧ tableCrcLo.size = 256 := by
  decide +kernel

/-- Both tables in one pass. -/
theorem crcTables_eq : (tableCrcHi.toList.zip tableCrcLo.toList).map registerOf =
    (List.range (2 ^ 8)).map (Crc.shiftStep 0xA001)^[8] := by
  decide +kernel

/-- **Each entry** is what eight shifts make of its index. -/
theorem crcTable_eq (i : Nat) (hi : i < 2 ^ 8) : crcTable i = (Crc.shiftStep 0xA001)^[8] i := by
  have hhi : i < tableCrcHi.size := crcTables_size.1 ▸ hi
  have hlo : i < tableCrcLo.size := crcTables_size.2 ▸ hi
  have hzip : (tableCrcHi.toList.zip tableCrcLo.toList)[i]? =
      some (tableCrcHi[i]!, tableCrcLo[i]!) := by
    rw [List.getElem?_zip_eq_some, Array.getElem?_toList, Array.getElem?_toList,
      getElem!_pos _ i hhi, getElem!_pos _ i hlo]
    exact ⟨getElem?_pos _ i hhi, getElem?_pos _ i hlo⟩
  have hentry := congrArg (·[i]?) crcTables_eq
  rw [List.getElem?_map, List.getElem?_map, hzip, List.getElem?_range hi] at hentry
  exact Option.some.inj hentry

/-! ### The registers -/

theorem registerOf_shiftRight (crc : UInt8 × UInt8) : registerOf crc >>> 8 = crc.2.toNat := by
  have hlow : crc.1.toNat >>> 8 = 0 := Nat.shiftRight_eq_zero _ 8 crc.1.toNat_lt
  rw [registerOf, Nat.shiftRight_xor_distrib, hlow, Nat.xor_zero, Nat.shiftLeft_shiftRight]

theorem registerOf_mod (crc : UInt8 × UInt8) : registerOf crc % 2 ^ 8 = crc.1.toNat := by
  have hhigh : crc.2.toNat <<< 8 % 2 ^ 8 = 0 := by
    rw [Nat.shiftLeft_eq, Nat.mul_mod_left]
  rw [registerOf, Nat.xor_mod_two_pow, hhigh, Nat.zero_xor, Nat.mod_eq_of_lt crc.1.toNat_lt]

theorem registerOf_xor (x hi lo : UInt8) :
    registerOf (x ^^^ hi, lo) = x.toNat ^^^ registerOf (hi, lo) := by
  simp only [registerOf, UInt8.toNat_xor]
  exact Nat.xor_left_comm _ _ _

/-- A byte changes both registers as it changes the register of sixteen bits. -/
theorem registerOf_crcStep (crc : UInt8 × UInt8) (b : UInt8) :
    registerOf (crcStep crc b) = Crc.tableStep crcTable 8 (registerOf crc) b.toNat := by
  have hindex : (registerOf crc ^^^ b.toNat) % 2 ^ 8 = (crc.1 ^^^ b).toNat := by
    rw [Nat.xor_mod_two_pow, registerOf_mod, Nat.mod_eq_of_lt b.toNat_lt, UInt8.toNat_xor]
  rw [Crc.tableStep, hindex, registerOf_shiftRight]
  exact registerOf_xor crc.2 _ _

theorem registerOf_foldl (x : List UInt8) (crc : UInt8 × UInt8) :
    registerOf (x.foldl crcStep crc) =
      x.foldl (fun a b => Crc.tableStep crcTable 8 a b.toNat) (registerOf crc) := by
  induction x generalizing crc with
  | nil => rfl
  | cons b x ih => rw [List.foldl_cons, List.foldl_cons, ih, registerOf_crcStep]

/-- The two registers hold the bitwise CRC. -/
theorem registerOf_crc16 (x : List UInt8) : registerOf (crc16 x) = DemoModbusRtu.crc16Loop x := by
  have hbits : DemoModbusRtu.crc16Loop x =
      (x.map UInt8.toNat).foldl (Crc.bitwiseStep 0xA001 8) 0xFFFF := by
    rw [DemoModbusRtu.crc16Loop, List.foldl_map]
    simp only [crc16Bits_eq]
    rfl
  have hbytes : ∀ b ∈ x.map UInt8.toNat, b < 2 ^ 8 := by
    intro b hb
    obtain ⟨v, -, rfl⟩ := List.mem_map.1 hb
    exact v.toNat_lt
  rw [hbits, Crc.foldl_tableStep crcTable_eq hbytes, List.foldl_map]
  exact registerOf_foldl x (0xFF, 0xFF)

/-- The slave's two bytes are the registers, in their order. -/
theorem demo_crc16 (x : List UInt8) :
    DemoModbusRtu.crc16 x = ((crc16 x).1.toNat, (crc16 x).2.toNat) := by
  have hlow : registerOf (crc16 x) &&& 0xFF = (crc16 x).1.toNat := by
    rw [Nat.and_two_pow_sub_one_eq_mod _ 8, registerOf_mod]
  have hhigh : (registerOf (crc16 x) >>> 8) &&& 0xFF = (crc16 x).2.toNat := by
    rw [Nat.and_two_pow_sub_one_eq_mod _ 8, registerOf_shiftRight,
      Nat.mod_eq_of_lt (crc16 x).2.toNat_lt]
  rw [DemoModbusRtu.crc16, ← registerOf_crc16, hlow, hhigh]

/-! ### What is returned -/

theorem crc16Step_toNat (crc : UInt8 × UInt8) (v : UInt8) :
    RtuCrc.crc16Step (crc.1.toNat, crc.2.toNat) v =
      ((crcStep crc v).1.toNat, (crcStep crc v).2.toNat) := by
  have hbyte : ∀ b : UInt8, b.toNat &&& 0xFF = b.toNat := fun b => by
    rw [Nat.and_two_pow_sub_one_eq_mod _ 8, Nat.mod_eq_of_lt b.toNat_lt]
  simp only [RtuCrc.crc16Step, crcStep, ← UInt8.toNat_xor, hbyte]

theorem foldl_crc16Step (x : List UInt8) (crc : UInt8 × UInt8) :
    x.foldl RtuCrc.crc16Step (crc.1.toNat, crc.2.toNat) =
      ((x.foldl crcStep crc).1.toNat, (x.foldl crcStep crc).2.toNat) := by
  induction x generalizing crc with
  | nil => rfl
  | cons v x ih => rw [List.foldl_cons, List.foldl_cons, crc16Step_toNat, ih]

theorem rtuCrc_crc16 (x : List UInt8) :
    RtuCrc.crc16 x = 256 * (crc16 x).1.toNat + (crc16 x).2.toNat := by
  have hloop : x.foldl RtuCrc.crc16Step (0xFF, 0xFF) = ((crc16 x).1.toNat, (crc16 x).2.toNat) :=
    foldl_crc16Step x (0xFF, 0xFF)
  rw [RtuCrc.crc16, hloop, ← Nat.shiftLeft_add_eq_or_of_lt (crc16 x).2.toNat_lt, Nat.shiftLeft_eq,
    Nat.mul_comm]

theorem rtuCrc16_toNat (x : List UInt8) :
    (rtuCrc16 x).toNat = 256 * (crc16 x).1.toNat + (crc16 x).2.toNat := by
  have hhi := (crc16 x).1.toNat_lt
  have hshift : ((crc16 x).1.toUInt16 <<< 8).toNat = (crc16 x).1.toNat <<< 8 := by
    rw [UInt16.toNat_shiftLeft, UInt8.toNat_toUInt16, show (8 : UInt16).toNat % 16 = 8 from rfl,
      Nat.mod_eq_of_lt (by rw [Nat.shiftLeft_eq]; omega)]
  rw [rtuCrc16, UInt16.toNat_or, hshift, UInt8.toNat_toUInt16,
    ← Nat.shiftLeft_add_eq_or_of_lt (crc16 x).2.toNat_lt, Nat.shiftLeft_eq, Nat.mul_comm]

/-- **Tables and shifts agree**, and the tables give the low byte of the CRC first. -/
theorem crc16_agrees (x : List UInt8) :
    RtuCrc.crc16 x = 256 * (DemoModbusRtu.crc16 x).1 + (DemoModbusRtu.crc16 x).2 ∧
      (rtuCrc16 x).toNat = 256 * (DemoModbusRtu.crc16 x).1 + (DemoModbusRtu.crc16 x).2 := by
  rw [demo_crc16]
  exact ⟨rtuCrc_crc16 x, rtuCrc16_toNat x⟩

/-- A heartbeat carries the bitwise CRC of what follows it. -/
theorem isHeartbeat_iff_bitwise {frame : List UInt8} :
    isHeartbeat frame = true ↔ 11 < frame.length ∧ frame.getD 0 0 = 0xC0 ∧
      DemoModbusRtu.crc16 (frame.drop 11) =
        ((frame.getD 9 0).toNat, (frame.getD 10 0).toNat) := by
  rw [demo_crc16, Prod.mk.injEq, UInt8.toNat_inj, UInt8.toNat_inj, ← Prod.mk.injEq]
  simp [isHeartbeat, and_assoc]

end RtuA118
