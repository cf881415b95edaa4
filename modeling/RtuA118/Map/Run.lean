import RtuA118.Lib.Run
import RtuA118.Map.Tables

/-!
# RtuA118.Map.Run

The life of the register map: a boot, then requests, internal writes, type
changes and further boots in any order.

A **reboot** starts over from the two flash files as the unit left them; the RAM
part of the map is built anew. Everything the program does that does not touch
the map is the one step `elsewhere`.
-/

namespace RtuA118

open Run (Reach)

/-- What can happen to the map. -/
inductive MapOp where
  | modbusWrite (buf : Nat → UInt16) (len wellNum addr : Int) (bigL : Bool)
  | internalWrite (buf : Nat → UInt16) (len wellNum addr : Int)
  | mset (v : UInt16) (len wellNum addr : Int)
  | remap (wellNum : Nat) (wellType : UInt16)
  | reboot
  | elsewhere

/-- The flash files as the unit leaves them. -/
def MapT.flash1File (m : MapT) : FlashFile := ⟨2 * flash1MaxLen, m.flash1⟩
def MapT.flash2File (m : MapT) : FlashFile := ⟨2 * (m.xMax * maxWellNum), m.flash2⟩

/-- One step of the map's life. -/
inductive MapStep (env : Platform) : Rtu → MapOp → Rtu → Prop where
  | modbusWrite (s : Rtu) (buf : Nat → UInt16) (len wellNum addr : Int) (bigL : Bool) :
      MapStep env s (.modbusWrite buf len wellNum addr bigL)
        (mapModbusWriteRegisters env buf len wellNum addr bigL s).2
  | internalWrite (s : Rtu) (buf : Nat → UInt16) (len wellNum addr : Int) :
      MapStep env s (.internalWrite buf len wellNum addr)
        (zigbeeWriteRegisters env buf len wellNum addr s).2
  | mset (s : Rtu) (v : UInt16) (len wellNum addr : Int) :
      MapStep env s (.mset v len wellNum addr) (zigbeeWriteRegistersMset v len wellNum addr s).2
  | remap (s : Rtu) (wellNum : Nat) (wellType : UInt16) :
      MapStep env s (.remap wellNum wellType) (mapItemRemap env wellNum wellType s).2
  | reboot (s : Rtu) {m : MapT} :
      mapInit env (some s.map.flash1File) (some s.map.flash2File) s.msyncs = some m →
      MapStep env s .reboot (.start m)
  | elsewhere {s s' : Rtu} : s'.map = s.map → MapStep env s .elsewhere s'

/-- The unit after a boot with whatever flash files were there. -/
def Booted (env : Platform) (s : Rtu) : Prop :=
  ∃ flash1 flash2 msyncs m, mapInit env flash1 flash2 msyncs = some m ∧ s = .start m

/-- The states of the map's life. -/
def MapReach (env : Platform) : Rtu → Prop := Reach (Booted env) (MapStep env)

/-! ### The block size never changes -/

theorem writeCell_xMax {env : Platform} {w i : Nat} {v : UInt16} {s : Rtu} :
    (writeCell env w i v s).2.map.xMax = s.map.xMax := by
  have h : (writeCell env w i v s).2.map.xMax = _ := congrArg Tables.xMax writeCell_tables
  rw [h]
  split <;> rfl

theorem writeCells_xMax {env : Platform} {w : Nat} : ∀ {vs : List UInt16} {i : Nat} {s : Rtu},
    (writeCells env w i vs s).2.map.xMax = s.map.xMax := by
  intro vs
  induction vs with
  | nil => intro i s; rfl
  | cons v vs ih =>
      intro i s
      have hc : (writeCell env w i v s).2.map.xMax = s.map.xMax := writeCell_xMax
      unfold writeCells
      split
      · rename_i s' h
        rw [h] at hc
        rw [ih, hc]
      · rename_i s' h
        rw [h] at hc
        exact hc

theorem zigbeeWriteRegisters_xMax {env : Platform} {buf : Nat → UInt16} {len wellNum addr : Int}
    {s : Rtu} : (zigbeeWriteRegisters env buf len wellNum addr s).2.map.xMax = s.map.xMax := by
  unfold zigbeeWriteRegisters
  split
  · exact writeCells_xMax
  · rfl

theorem WriteLoop.turn_xMax {env : Platform} {buf : Nat → UInt16} {bigL : Bool} {w : Nat}
    {c : WriteLoop} : (c.turn env buf bigL w).rtu.map.xMax = c.rtu.map.xMax := by
  unfold WriteLoop.turn
  dsimp only
  split
  · rfl
  · split
    · rfl
    · exact zigbeeWriteRegisters_xMax
  · rfl

theorem mapModbusWriteRegisters_xMax {env : Platform} {buf : Nat → UInt16} {len wellNum addr : Int}
    {bigL : Bool} {s : Rtu} :
    (mapModbusWriteRegisters env buf len wellNum addr bigL s).2.map.xMax = s.map.xMax := by
  unfold mapModbusWriteRegisters modbusWriteLanded
  split
  · dsimp only
    induction len.toNat with
    | zero => rfl
    | succ n ih =>
        rw [modbusWriteLoop, WriteLoop.turn_xMax, ih]
  · rfl

theorem mapItemRemap_xMax {env : Platform} {w : Nat} {t : UInt16} {s : Rtu} :
    (mapItemRemap env w t s).2.map.xMax = s.map.xMax :=
  congrArg Tables.xMax mapItemRemap_tables

end RtuA118
