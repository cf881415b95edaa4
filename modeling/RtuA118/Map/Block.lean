import RtuA118.Lib.Memory
import RtuA118.Map.Integrity
import RtuA118.Map.Snapshot
import RtuA118.Map.StoreEffect

/-!
# RtuA118.Map.Block

The one block of memory that the tables of the map lie in.

The model keeps the six tables apart (`MapT`). In the program they are pointers into the
block that `ram_flash_create` allocates, `ram_x` first and `ram_y_map_type` last, and the
loader stores and copies through them without a test. `Block.event` does to the bytes of
the block what a step of the map's life does there, wherever that lands.

As long as the steps stay inside the tables, the block holds the tables of the map
(`Lays`), and over files that fit the store they always do (`block_life`). With blocks of
fewer than 300 cells the copies of the common cells do not: words of `ram_x` become kinds
(`overrun`).
-/

namespace RtuA118

open Run (Reach Steps guarded)
open Memory (Table)

namespace Block

/-! ### The layout -/

inductive RamTable where
  | ramX
  | ramXMapType
  | ramXMapRecord
  | ramXMapRw
  | ramY
  | ramYMapType
  deriving DecidableEq, Repr

namespace RamTable

/-- `sizeof` of an element. -/
def size : RamTable → Nat
  | ramX | ramY => 2
  | _ => 1

def length (xMax : Nat) : RamTable → Nat
  | ramY | ramYMapType => maxRegisterNum * maxWellNum
  | _ => xMax * maxWellNum

/-- Each pointer is the one before and the length of its table. -/
def base (xMax : Nat) : RamTable → Nat
  | ramX => 0
  | ramXMapType => 2 * (xMax * maxWellNum)
  | ramXMapRecord => 2 * (xMax * maxWellNum) + xMax * maxWellNum
  | ramXMapRw => 2 * (xMax * maxWellNum) + xMax * maxWellNum + xMax * maxWellNum
  | ramY => 2 * (xMax * maxWellNum) + xMax * maxWellNum + xMax * maxWellNum + xMax * maxWellNum
  | ramYMapType =>
    2 * (xMax * maxWellNum) + xMax * maxWellNum + xMax * maxWellNum + xMax * maxWellNum +
      2 * (maxRegisterNum * maxWellNum)

end RamTable

/-- The bytes of a word, the lower one first. -/
def wordByte (v : UInt16) (j : Nat) : UInt8 := if j = 0 then loByte v else hiByte v

/-- The enumerators, from 0 on. -/
def kindByte (k : MapKind) (_ : Nat) : UInt8 :=
  match k with
  | .null => 0
  | .ram => 1
  | .flash1 => 2
  | .flash2 => 3
  | .sys => 4
  | .record => 5
  | .ro => 6
  | .rw => 7

variable (xMax : Nat)

def table {α : Type} (n : RamTable) (byte : α → Nat → UInt8) : Table α :=
  ⟨n.base xMax, n.length xMax, n.size, byte⟩

abbrev ramX : Table UInt16 := table xMax .ramX wordByte
abbrev ramXMapType : Table MapKind := table xMax .ramXMapType kindByte
abbrev ramXMapRecord : Table MapKind := table xMax .ramXMapRecord kindByte
abbrev ramXMapRw : Table MapKind := table xMax .ramXMapRw kindByte
abbrev ramY : Table UInt16 := table xMax .ramY wordByte
abbrev ramYMapType : Table MapKind := table xMax .ramYMapType kindByte

/-! ### What the program does in the block -/

/-- The `memset` calls of `ram_flash_create`. -/
def ramFlashCreate (mem : Nat → UInt8) : Nat → UInt8 :=
  let mem := (ramX xMax).memset 0 (xMax * maxWellNum) 0xFF mem
  let mem := (ramXMapType xMax).memset 0 (xMax * maxWellNum) 0 mem
  let mem := (ramXMapRecord xMax).memset 0 (xMax * maxWellNum) 0 mem
  let mem := (ramXMapRw xMax).memset 0 (xMax * maxWellNum) 6 mem
  let mem := (ramY xMax).memset 0 (maxRegisterNum * maxWellNum) 0xFF mem
  (ramYMapType xMax).memset 0 (maxRegisterNum * maxWellNum) 0 mem

/-- The body of the loader's loops, the pointers at these bases. -/
def loadCell (xb yb : Nat) (c : RowCell) (mem : Nat → UInt8) : Nat → UInt8 :=
  let mem := (ramX xMax).store (xb + c.x.toNat) c.dV mem
  let mem := (ramXMapType xMax).store (xb + c.x.toNat) c.flags.mapType mem
  let mem := (ramXMapRecord xMax).store (xb + c.x.toNat) c.flags.mapRecord mem
  let mem := (ramXMapRw xMax).store (xb + c.x.toNat) c.flags.mapRw mem
  let mem := (ramY xMax).store (yb + c.y.toNat) c.x mem
  (ramYMapType xMax).store (yb + c.y.toNat) .ram mem

/-- The copies after the common file. -/
def copyWell (wellIndex : Nat) (mem : Nat → UInt8) : Nat → UInt8 :=
  let mem := (ramX xMax).memcpy (wellIndex * xMax) 0 flash1MaxLen mem
  let mem := (ramXMapType xMax).memcpy (wellIndex * xMax) 0 flash1MaxLen mem
  let mem := (ramXMapRecord xMax).memcpy (wellIndex * xMax) 0 flash1MaxLen mem
  let mem := (ramXMapRw xMax).memcpy (wellIndex * xMax) 0 flash1MaxLen mem
  let mem := (ramY xMax).memcpy (wellIndex * maxRegisterNum) 0 maxRegisterNum mem
  (ramYMapType xMax).memcpy (wellIndex * maxRegisterNum) 0 maxRegisterNum mem

/-- The switch of the write loop on the byte of the cell's kind: where the word goes into
`ram_x`. What the function behind a `SYS` cell stores there is overwritten. -/
def writeCell (env : Platform) (w i : Nat) (v : UInt16) (s : Rtu) (mem : Nat → UInt8) :
    Nat → UInt8 :=
  let cell := xMax * (w - 1) + i
  let kind := mem ((ramXMapType xMax).addr cell)
  if kind = 0 ∨ kind = 1 then (ramX xMax).store cell v mem
  else if kind = 2 ∨ kind = 3 then
    if env.msync s.msyncs then (ramX xMax).store cell v mem else mem
  else if kind = 4 then
    match mapMapFunWrite env v w i s with
    | some (v', _) => (ramX xMax).store cell v' mem
    | none => (ramX xMax).store cell v mem
  else mem

/-- A step of the map's life, in the block. -/
def event (env : Platform) (s : Rtu) (mem : Nat → UInt8) : MapEvent → Nat → UInt8
  | .powerUp xMax _ _ => ramFlashCreate xMax mem
  | .load xb yb _ _ c => loadCell s.map.xMax xb yb c mem
  | .copyWell _ wellIndex => copyWell s.map.xMax wellIndex mem
  | .ramWord a v => (ramX s.map.xMax).store a v mem
  | .store w i v => writeCell s.map.xMax env w i v s mem
  | .regWord w i v => (ramY s.map.xMax).store (yBase w + i) v mem
  | .sweep a len v => (ramX s.map.xMax).memset a len (loByte v) mem
  | .typeCell _ _ | .elsewhere => mem

/-! ### The tables are apart -/

variable {xMax}

theorem apart {α β : Type} {n n' : RamTable} {byte : α → Nat → UInt8} {byte' : β → Nat → UInt8}
    (h : n ≠ n') : (table xMax n byte).Apart (table xMax n' byte') := by
  unfold Table.Apart table Table.addr
  dsimp only
  cases n <;> cases n' <;>
    first
      | exact absurd rfl h
      | (simp only [RamTable.base, RamTable.length, RamTable.size, maxRegisterNum, maxWellNum]
         omega)

/-! ### The block holds the tables -/

/-- The tables of the map lie in the block. -/
structure Lays (mem : Nat → UInt8) (m : MapT) : Prop where
  ramX : (Block.ramX m.xMax).Holds mem m.ramX
  ramXMapType : (Block.ramXMapType m.xMax).Holds mem m.ramXMapType
  ramXMapRecord : (Block.ramXMapRecord m.xMax).Holds mem m.ramXMapRecord
  ramXMapRw : (Block.ramXMapRw m.xMax).Holds mem m.ramXMapRw
  ramY : (Block.ramY m.xMax).Holds mem m.ramY
  ramYMapType : (Block.ramYMapType m.xMax).Holds mem m.ramYMapType

section Lays

variable {mem mem' : Nat → UInt8} {m : MapT} {dst len : Nat}

theorem Lays.of_ramX (h : Lays mem m) {f : Nat → UInt16}
    (hc : (Block.ramX m.xMax).Changes dst len mem mem')
    (hlen : dst + len ≤ m.xMax * maxWellNum)
    (hf : (Block.ramX m.xMax).Holds mem' f) : Lays mem' { m with ramX := f } where
  ramX := hf
  ramXMapType := h.ramXMapType.of_changes hc hlen (apart (by decide))
  ramXMapRecord := h.ramXMapRecord.of_changes hc hlen (apart (by decide))
  ramXMapRw := h.ramXMapRw.of_changes hc hlen (apart (by decide))
  ramY := h.ramY.of_changes hc hlen (apart (by decide))
  ramYMapType := h.ramYMapType.of_changes hc hlen (apart (by decide))

theorem Lays.of_ramXMapType (h : Lays mem m) {f : Nat → MapKind}
    (hc : (Block.ramXMapType m.xMax).Changes dst len mem mem')
    (hlen : dst + len ≤ m.xMax * maxWellNum)
    (hf : (Block.ramXMapType m.xMax).Holds mem' f) : Lays mem' { m with ramXMapType := f } where
  ramX := h.ramX.of_changes hc hlen (apart (by decide))
  ramXMapType := hf
  ramXMapRecord := h.ramXMapRecord.of_changes hc hlen (apart (by decide))
  ramXMapRw := h.ramXMapRw.of_changes hc hlen (apart (by decide))
  ramY := h.ramY.of_changes hc hlen (apart (by decide))
  ramYMapType := h.ramYMapType.of_changes hc hlen (apart (by decide))

theorem Lays.of_ramXMapRecord (h : Lays mem m) {f : Nat → MapKind}
    (hc : (Block.ramXMapRecord m.xMax).Changes dst len mem mem')
    (hlen : dst + len ≤ m.xMax * maxWellNum)
    (hf : (Block.ramXMapRecord m.xMax).Holds mem' f) : Lays mem' { m with ramXMapRecord := f } where
  ramX := h.ramX.of_changes hc hlen (apart (by decide))
  ramXMapType := h.ramXMapType.of_changes hc hlen (apart (by decide))
  ramXMapRecord := hf
  ramXMapRw := h.ramXMapRw.of_changes hc hlen (apart (by decide))
  ramY := h.ramY.of_changes hc hlen (apart (by decide))
  ramYMapType := h.ramYMapType.of_changes hc hlen (apart (by decide))

theorem Lays.of_ramXMapRw (h : Lays mem m) {f : Nat → MapKind}
    (hc : (Block.ramXMapRw m.xMax).Changes dst len mem mem')
    (hlen : dst + len ≤ m.xMax * maxWellNum)
    (hf : (Block.ramXMapRw m.xMax).Holds mem' f) : Lays mem' { m with ramXMapRw := f } where
  ramX := h.ramX.of_changes hc hlen (apart (by decide))
  ramXMapType := h.ramXMapType.of_changes hc hlen (apart (by decide))
  ramXMapRecord := h.ramXMapRecord.of_changes hc hlen (apart (by decide))
  ramXMapRw := hf
  ramY := h.ramY.of_changes hc hlen (apart (by decide))
  ramYMapType := h.ramYMapType.of_changes hc hlen (apart (by decide))

theorem Lays.of_ramY (h : Lays mem m) {f : Nat → UInt16}
    (hc : (Block.ramY m.xMax).Changes dst len mem mem')
    (hlen : dst + len ≤ maxRegisterNum * maxWellNum)
    (hf : (Block.ramY m.xMax).Holds mem' f) : Lays mem' { m with ramY := f } where
  ramX := h.ramX.of_changes hc hlen (apart (by decide))
  ramXMapType := h.ramXMapType.of_changes hc hlen (apart (by decide))
  ramXMapRecord := h.ramXMapRecord.of_changes hc hlen (apart (by decide))
  ramXMapRw := h.ramXMapRw.of_changes hc hlen (apart (by decide))
  ramY := hf
  ramYMapType := h.ramYMapType.of_changes hc hlen (apart (by decide))

theorem Lays.of_ramYMapType (h : Lays mem m) {f : Nat → MapKind}
    (hc : (Block.ramYMapType m.xMax).Changes dst len mem mem')
    (hlen : dst + len ≤ maxRegisterNum * maxWellNum)
    (hf : (Block.ramYMapType m.xMax).Holds mem' f) : Lays mem' { m with ramYMapType := f } where
  ramX := h.ramX.of_changes hc hlen (apart (by decide))
  ramXMapType := h.ramXMapType.of_changes hc hlen (apart (by decide))
  ramXMapRecord := h.ramXMapRecord.of_changes hc hlen (apart (by decide))
  ramXMapRw := h.ramXMapRw.of_changes hc hlen (apart (by decide))
  ramY := h.ramY.of_changes hc hlen (apart (by decide))
  ramYMapType := hf

/-- Nothing of the flash is in the block. -/
theorem Lays.of_flash (h : Lays mem m) (flash1 flash2 : Nat → UInt16) :
    Lays mem { m with flash1 := flash1, flash2 := flash2 } :=
  ⟨h.ramX, h.ramXMapType, h.ramXMapRecord, h.ramXMapRw, h.ramY, h.ramYMapType⟩

/-! ### One step -/

/-- A word of two like bytes. -/
theorem wordByte_alike {v : UInt16} (h : hiByte v = loByte v) (j : Nat) :
    wordByte v j = loByte v := by
  unfold wordByte
  split
  · rfl
  · exact h

/-- A table keeps its elements where another is set up. -/
theorem holds_of_memset {α β : Type} {n n' : RamTable} {byte : α → Nat → UInt8}
    {byte' : β → Nat → UInt8} {xMax : Nat} {f : Nat → α} {v : UInt8} (hne : n ≠ n')
    (h : (table xMax n byte).Holds mem f) :
    (table xMax n byte).Holds ((table xMax n' byte').memset 0 (n'.length xMax) v mem) f :=
  h.of_changes (Table.changes_memset _ _ _) (Nat.le_of_eq (Nat.zero_add _)) (apart hne)

/-- What `ram_flash_create` sets up, whatever the block held. -/
theorem lays_ramFlashCreate (mem : Nat → UInt8) (xMax : Nat) (f1 f2 : Nat → UInt16) :
    Lays (ramFlashCreate xMax mem) (emptyMap xMax f1 f2) where
  ramX := holds_of_memset (by decide) <| holds_of_memset (by decide) <|
    holds_of_memset (by decide) <| holds_of_memset (by decide) <| holds_of_memset (by decide) <|
    Table.holds_memset fun j _ => wordByte_alike rfl j
  ramXMapType := holds_of_memset (by decide) <| holds_of_memset (by decide) <|
    holds_of_memset (by decide) <| holds_of_memset (by decide) <|
    Table.holds_memset fun _ _ => rfl
  ramXMapRecord := holds_of_memset (by decide) <| holds_of_memset (by decide) <|
    holds_of_memset (by decide) <| Table.holds_memset fun _ _ => rfl
  ramXMapRw := holds_of_memset (by decide) <| holds_of_memset (by decide) <|
    Table.holds_memset fun _ _ => rfl
  ramY := holds_of_memset (by decide) <| Table.holds_memset fun j _ => wordByte_alike rfl j
  ramYMapType := Table.holds_memset fun _ _ => rfl

theorem Lays.loadCell (h : Lays mem m) {xb yb : Nat} {b1 b2 : Bool} {c : RowCell}
    (hcell : xb + c.x.toNat < m.xMax * maxWellNum)
    (hreg : yb + c.y.toNat < maxRegisterNum * maxWellNum) :
    Lays (Block.loadCell m.xMax xb yb c mem) (RtuA118.loadCell xb yb b1 b2 m c) := by
  have h1 := h.of_ramX (Table.changes_store _ _) hcell (h.ramX.store _ c.dV)
  have h2 := h1.of_ramXMapType (Table.changes_store _ _) hcell
    (h1.ramXMapType.store _ c.flags.mapType)
  have h3 := h2.of_ramXMapRecord (Table.changes_store _ _) hcell
    (h2.ramXMapRecord.store _ c.flags.mapRecord)
  have h4 := h3.of_ramXMapRw (Table.changes_store _ _) hcell
    (h3.ramXMapRw.store _ c.flags.mapRw)
  have h5 := h4.of_ramY (Table.changes_store _ _) hreg (h4.ramY.store _ c.x)
  have h6 := h5.of_ramYMapType (Table.changes_store _ _) hreg (h5.ramYMapType.store _ .ram)
  exact h6.of_flash _ _

theorem Lays.copyWell (h : Lays mem m) {b2 : Bool} {k : Nat} (hk : k < maxWellNum)
    (hfit : k * m.xMax + flash1MaxLen ≤ m.xMax * maxWellNum) :
    Lays (Block.copyWell m.xMax k mem) (RtuA118.copyWell b2 m k) := by
  have hsrc : 0 + flash1MaxLen ≤ m.xMax * maxWellNum := by omega
  have hreg : k * maxRegisterNum + maxRegisterNum ≤ maxRegisterNum * maxWellNum := by
    rw [Nat.mul_comm maxRegisterNum, ← Nat.succ_mul]
    exact Nat.mul_le_mul_right _ hk
  have hregSrc : 0 + maxRegisterNum ≤ maxRegisterNum * maxWellNum := by decide
  have h1 := h.of_ramX (Table.changes_memcpy _ 0 _) hfit (h.ramX.memcpy hsrc)
  have h2 := h1.of_ramXMapType (Table.changes_memcpy _ 0 _) hfit (h1.ramXMapType.memcpy hsrc)
  have h3 := h2.of_ramXMapRecord (Table.changes_memcpy _ 0 _) hfit (h2.ramXMapRecord.memcpy hsrc)
  have h4 := h3.of_ramXMapRw (Table.changes_memcpy _ 0 _) hfit (h3.ramXMapRw.memcpy hsrc)
  have h5 := h4.of_ramY (Table.changes_memcpy _ 0 _) hreg (h4.ramY.memcpy hregSrc)
  have h6 := h5.of_ramYMapType (Table.changes_memcpy _ 0 _) hreg (h5.ramYMapType.memcpy hregSrc)
  exact h6.of_flash _ _

/-- The byte that the write loop's switch looks at. -/
theorem Lays.kind (h : Lays mem m) {a : Nat} (ha : a < m.xMax * maxWellNum) :
    mem ((Block.ramXMapType m.xMax).addr a) = kindByte (m.ramXMapType a) 0 :=
  h.ramXMapType a ha 0 Nat.zero_lt_one

theorem Lays.writeCell {env : Platform} {s : Rtu} (h : Lays mem s.map) {w i : Nat} {v : UInt16}
    (hw : 1 ≤ w) (hw8 : w ≤ maxWellNum) (hi : i < s.map.xMax)
    (h0 : s.map.ramXMapType (s.map.xBase w + i) = .sys → i ≠ mapChangeWellType) :
    Lays (Block.writeCell s.map.xMax env w i v s mem) (RtuA118.writeCell env w i v s).2.map := by
  have hlt := xBase_add_lt hw hw8 hi
  have hset : ∀ u, Lays ((Block.ramX s.map.xMax).store (s.map.xBase w + i) u mem)
      (s.map.setRamX w i u) := fun u =>
    h.of_ramX (Table.changes_store _ _) hlt (h.ramX.store _ u)
  unfold Block.writeCell
  dsimp only
  rw [show s.map.xMax * (w - 1) + i = s.map.xBase w + i from rfl, h.kind hlt]
  cases ht : s.map.ramXMapType (s.map.xBase w + i) with
  | null | ram =>
      rw [if_pos (by decide), RtuA118.writeCell, ht]
      exact hset v
  | flash1 =>
      rw [if_neg (by decide), if_pos (by decide), writeCell_flash1 ht]
      dsimp only [Rtu.onMap_map]
      split
      · exact (hset v).of_flash _ _
      · exact h.of_flash _ _
  | flash2 =>
      rw [if_neg (by decide), if_pos (by decide), writeCell_flash2 ht]
      dsimp only [Rtu.onMap_map]
      split
      · exact (hset v).of_flash _ _
      · exact h.of_flash _ _
  | sys =>
      rw [if_neg (by decide), if_neg (by decide), if_pos (by decide), RtuA118.writeCell, ht]
      dsimp only
      cases hf : mapMapFunWrite env v w i s with
      | none => exact hset v
      | some r =>
          dsimp only [Rtu.onMap_map]
          obtain hm | hm | ⟨-, -, hm⟩ | hm := mapMapFunWrite_map hf (h0 ht)
          · rw [hm]
            exact hset r.1
          · rw [hm, MapT.setRamX_setRamX]
            exact (hset r.1).of_flash _ _
          · rw [hm, MapT.setRamX_setRamX]
            exact (hset r.1).of_flash _ _
          · rw [hm, MapT.setRamX_setRamX]
            exact hset r.1
  | record | ro | rw =>
      rw [if_neg (by decide), if_neg (by decide), if_neg (by decide), RtuA118.writeCell, ht]
      exact h

/-- The step stays inside the tables, and a fill is one that `memset` can do. -/
def InTables (xMax : Nat) : MapEvent → Prop
  | .load xb yb _ _ c =>
    xb + c.x.toNat < xMax * maxWellNum ∧ yb + c.y.toNat < maxRegisterNum * maxWellNum
  | .copyWell _ k => k < maxWellNum ∧ k * xMax + flash1MaxLen ≤ xMax * maxWellNum
  | .ramWord a _ => a < xMax * maxWellNum
  | .regWord w i _ => yBase w + i < maxRegisterNum * maxWellNum
  | .sweep a len v => a + len ≤ xMax * maxWellNum ∧ hiByte v = loByte v
  | .powerUp _ _ _ | .typeCell _ _ | .store _ _ _ | .elsewhere => True

/-- **One step** does to the block what it does to the tables. -/
theorem Lays.event {env : Platform} {s s' : Rtu} {e : MapEvent} (h : Lays mem s.map)
    (hin : InTables s.map.xMax e) (hstep : EventStep env s e s') :
    Lays (Block.event env s mem e) s'.map := by
  cases hstep with
  | powerUp xMax f1 f2 => exact lays_ramFlashCreate mem xMax f1 f2
  | load xb yb b1 b2 c => exact h.loadCell hin.1 hin.2
  | copyWell b2 k => exact h.copyWell hin.1 hin.2
  | typeCell a v => exact h.of_flash _ _
  | ramWord a v => exact h.of_ramX (Table.changes_store _ _) hin (h.ramX.store a v)
  | store v hw hw8 hi h0 => exact h.writeCell hw hw8 hi h0
  | regWord w i v => exact h.of_ramY (Table.changes_store _ _) hin (h.ramY.store _ v)
  | sweep a len v =>
      exact h.of_ramX (Table.changes_memset _ _ _) hin.1
        (h.ramX.memset fun j _ => wordByte_alike hin.2 j)
  | elsewhere hmap => rw [hmap]; exact h

end Lays

/-! ### Whole runs -/

/-- A step of the unit and its block. -/
inductive Step (env : Platform) : Rtu × (Nat → UInt8) → MapEvent → Rtu × (Nat → UInt8) → Prop where
  | event {s s' : Rtu} {e : MapEvent} (mem : Nat → UInt8) (h : EventStep env s e s') :
      Step env (s, mem) e (s', Block.event env s mem e)

/-- A unit with empty tables, in a block that held anything. -/
def PoweredUp (c : Rtu × (Nat → UInt8)) : Prop :=
  ∃ xMax f1 f2 mem, c = (.start (emptyMap xMax f1 f2), ramFlashCreate xMax mem)

/-- What is reached by steps inside the tables. -/
def InsideReach (env : Platform) : Rtu × (Nat → UInt8) → Prop :=
  Reach PoweredUp (guarded (fun c e => InTables c.1.map.xMax e) (Step env))

theorem InsideReach.lays {env : Platform} {s : Rtu} {mem : Nat → UInt8}
    (h : InsideReach env (s, mem)) : Lays mem s.map := by
  refine Reach.invariant (P := fun c => Lays c.2 c.1.map) ?_ ?_ h
  · rintro c ⟨xMax, f1, f2, mem, rfl⟩
    exact lays_ramFlashCreate mem xMax f1 f2
  · rintro c e c' hc ⟨hin, hstep⟩
    cases hstep with
    | event mem hstep => exact hc.event hin hstep

/-- Steps of the unit inside the tables are steps of it and its block. -/
theorem InsideReach.steps {env : Platform} {s s' : Rtu} {mem : Nat → UInt8}
    (h : InsideReach env (s, mem))
    (hs : Steps (guarded (fun s e => InTables s.map.xMax e) (EventStep env)) s s') :
    ∃ mem', InsideReach env (s', mem') := by
  induction hs with
  | refl => exact ⟨mem, h⟩
  | tail _ hstep ih =>
      obtain ⟨mem', hmem⟩ := ih
      obtain ⟨e, hin, hstep⟩ := hstep
      exact ⟨_, hmem.step ⟨hin, .event mem' hstep⟩⟩

/-- Blocks of 200 cells, with two cells that are no flash cells. The copies to well 8 run 100
words past the end of `ram_x`, and the two bytes of cell 50's word become kinds. -/
theorem overrun : ¬ ∀ env c, Reach PoweredUp (Step env) c → Lays c.2 c.1.map := by
  intro h
  let blank : Nat → UInt16 := fun _ => 0xFFFF
  have h0 : Reach PoweredUp (Step (.bare fun _ => none))
      (.start (emptyMap 200 blank blank), ramFlashCreate 200 fun _ => 0) :=
    .start ⟨200, blank, blank, _, rfl⟩
  have h1 := h0.step (.event _ (.load _ 0 0 true true ⟨50, 50, 0x0303, ⟨.null, .null, .rw⟩⟩))
  have h2 := h1.step (.event _ (.load _ 0 0 true true ⟨100, 100, 9, ⟨.null, .record, .rw⟩⟩))
  have h3 := h2.step (.event _ (.copyWell _ true 1))
  have h4 := h3.step (.event _ (.copyWell _ true 2))
  have h5 := h4.step (.event _ (.copyWell _ true 3))
  have h6 := h5.step (.event _ (.copyWell _ true 4))
  have h7 := h6.step (.event _ (.copyWell _ true 5))
  have h8 := h7.step (.event _ (.copyWell _ true 6))
  have h9 := h8.step (.event _ (.copyWell _ true 7))
  have hkind := (h _ _ h9).ramXMapType 100 (by decide) 0 (by decide)
  exact absurd hkind (by decide +kernel)

/-! ### Files that fit -/

theorem block_inTable {xMax w : Nat} (hw8 : w ≤ maxWellNum) :
    xMax * (w - 1) + xMax ≤ xMax * maxWellNum := by
  have hw : w - 1 + 1 ≤ maxWellNum := by
    unfold maxWellNum at *
    omega
  exact Nat.mul_le_mul_left xMax hw

theorem cell_inTable {xMax w i : Nat} (hw8 : w ≤ maxWellNum) (hi : i < xMax) :
    xMax * (w - 1) + i < xMax * maxWellNum :=
  Nat.lt_of_lt_of_le (Nat.add_lt_add_left hi _) (block_inTable hw8)

section Files

variable {env : Platform} {xMax : UInt16} (hx : getXYZMaxLen env = some xMax)
  (hfit : FilesFit env xMax.toNat)

include hx hfit

/-- The rows of every type stay in the block of their well. -/
theorem typeCell_lt (t : UInt16) :
    ∀ c ∈ fileCells env (bootPath env t), c.x.toNat < xMax.toNat := by
  refine hfit.typeCell hx ?_ t
  rintro rfl
  exact absurd hfit.block (by decide)

/-- A boot stays inside. -/
theorem admitsBoot : AdmitsBoot env xMax.toNat fun s e => InTables s.map.xMax e where
  common s hs b1 b2 c hc := by
    rw [hs]
    exact ⟨cell_inTable (w := 1) (by decide) (hfit.commonCell c hc),
      cell_inTable (w := 1) (by decide) (hfit.commonRegister c hc)⟩
  copyWell s hs b2 k hk := by
    rw [hs]
    have hlast := Store.block_lt (i := flash1MaxLen - 1) hk
      (Nat.lt_of_lt_of_le (by decide) hfit.block)
    exact ⟨hk, hlast⟩
  typeCell _ _ _ _ := trivial
  row s hs b2 k hk t c hc := by
    rw [hs]
    exact ⟨Store.block_lt hk (typeCell_lt hx hfit t c hc),
      Store.block_lt hk (hfit.typeRegister t c hc)⟩

/-- So do the operations on a well. -/
theorem admitsWell {w : Nat} (hw8 : w ≤ maxWellNum) :
    AdmitsWell env xMax.toNat w fun s e => InTables s.map.xMax e where
  typeCell _ _ _ := trivial
  row s hs t path hpath c hc := by
    have hboot : bootPath env t = path := by rw [bootPath, hpath, Option.getD_some]
    rw [← hboot] at hc
    rw [MapT.xBase, hs]
    exact ⟨cell_inTable hw8 (typeCell_lt hx hfit t c hc),
      cell_inTable hw8 (hfit.typeRegister t c hc)⟩
  ramWord s hs i hi v := by
    rw [MapT.xBase, hs]
    exact cell_inTable hw8 hi
  sweep s hs i len hlen v := by
    have hend : xMax.toNat * (w - 1) + xMax.toNat ≤ xMax.toNat * maxWellNum := block_inTable hw8
    rw [MapT.xBase, hs]
    exact ⟨by omega, by rw [hiByte_wordOfBytes, loByte_wordOfBytes]⟩
  regWord s i hi v := cell_inTable hw8 hi
  store _ _ _ := trivial
  elsewhere _ := trivial

/-- So does the factory reset. -/
theorem resetFlash1ToDefault_inside {s : Rtu} (hs : s.map.xMax = xMax.toNat) :
    Steps (guarded (fun s e => InTables s.map.xMax e) (EventStep env)) s
      (resetFlash1ToDefault env s).2 := by
  have hrows : Steps (guarded (fun s e => InTables s.map.xMax e) (EventStep env)) s
      (s.onMap fun m => (fileCells env pathMap1).foldl (RtuA118.loadCell 0 0 true false) m) :=
    foldl_loadCell_events fun s' hs' c hc =>
      (admitsBoot hx hfit).common s' (hs'.trans hs) true false c hc
  exact hrows.trans (.one (a := .elsewhere) ⟨trivial, .elsewhere resetFlash1ToDefault_map⟩)

end Files

end Block

/-- A change of type is one of the unit's wells', and no recorded values are stored. -/
def LifeOp.InWells : LifeOp → Prop
  | .map op => op.InWells
  | .factoryReset => True
  | .dataWrite _ _ _ _ _ => False

namespace Block

/-- The indices that lead from registers to cells are inside, and the unit with its block got
here by steps inside the tables. -/
structure Fits (env : Platform) (s : Rtu) : Prop where
  sized : Sized env s.map
  mapped : s.map.tables.MappedInside
  reached : ∃ mem, InsideReach env (s, mem)

/-- A unit whose tables were set up anew. -/
theorem reached_of_emptyMap {env : Platform} {xMax : Nat} {g1 g2 : Nat → UInt16} {s : Rtu}
    (h : Steps (guarded (fun s e => InTables s.map.xMax e) (EventStep env))
      (.start (emptyMap xMax g1 g2)) s) : ∃ mem, InsideReach env (s, mem) :=
  InsideReach.steps (.start ⟨_, _, _, fun _ => 0, rfl⟩) h

theorem Fits.step {env : Platform} {s s' : Rtu} {op : LifeOp}
    (hfit : ∀ xMax, getXYZMaxLen env = some xMax → FilesFit env xMax.toNat) (h : Fits env s)
    (hop : op.InWells) (hstep : LifeStep env s op s') : Fits env s' := by
  obtain ⟨xMax, hx, hx0, hs⟩ := h.sized
  have hstore : op.StoresUnmapped s := by
    cases op with
    | map op => trivial
    | factoryReset => trivial
    | dataWrite buf len wellNum addr bigL => exact hop.elim
  obtain ⟨hsize', hin'⟩ := hstep.mappedInside (hs ▸ hfit xMax hx) hstore h.sized h.mapped
  refine ⟨hsize', hin', ?_⟩
  obtain ⟨mem, hmem⟩ := h.reached
  cases hstep with
  | factoryReset => exact hmem.steps (resetFlash1ToDefault_inside hx (hfit xMax hx) hs)
  | dataWrite => exact hop.elim
  | map hmap =>
      have hs' : s'.map.xMax = xMax.toNat := (h.sized.xMax_eq hsize').symm.trans hs
      have hwell := fun w (hw8 : w ≤ maxWellNum) => admitsWell hx (hfit xMax hx) hw8
      obtain hsteps | ⟨g1, g2, hsteps⟩ := hmap.events (hs' ▸ admitsBoot hx (hfit xMax hx))
        (hs ▸ hwell) fun w t hremap => hs ▸ hwell w (by subst hremap; exact hop)
      · exact hmem.steps hsteps
      · exact reached_of_emptyMap hsteps

theorem fits_of_reach {env : Platform} {s : Rtu}
    (hfit : ∀ xMax, getXYZMaxLen env = some xMax → FilesFit env xMax.toNat)
    (h : Reach (Booted env) (guarded (fun _ op => op.InWells) (LifeStep env)) s) :
    Fits env s := by
  refine h.invariant ?_ fun _ _ _ hs hstep => hs.step hfit hstep.1 hstep.2
  rintro s ⟨f1, f2, k, m, hinit, rfl⟩
  obtain ⟨xMax, hx, hm⟩ := mapInit_xMax hinit
  obtain ⟨g1, g2, hsteps⟩ := mapInit_events hinit (hm ▸ admitsBoot hx (hfit xMax hx))
  exact ⟨mapInit_sized hinit, mapInit_mappedInside hinit ((hm ▸ hfit xMax hx).loadFits f1 f2),
    reached_of_emptyMap hsteps⟩

/-- **The tables of the map are those in its block.** In every run of the smallest steps inside
the tables the block holds the tables of the map. Over files that fit, every state reached by
boots, writes, factory resets and changes of the wells' types is reached so, and the registers
in it lead to cells of their own well. -/
theorem block_life (env : Platform) :
    (∀ s mem, InsideReach env (s, mem) → Lays mem s.map) ∧
      ((∀ xMax, getXYZMaxLen env = some xMax → FilesFit env xMax.toNat) →
        ∀ s, Reach (Booted env) (guarded (fun _ op => op.InWells) (LifeStep env)) s →
          s.map.IndexesInside ∧ ∃ mem, InsideReach env (s, mem)) :=
  ⟨fun _ _ h => h.lays, fun hfit _ h =>
    ⟨(fits_of_reach hfit h).mapped.indexesInside, (fits_of_reach hfit h).reached⟩⟩

/-- A register written, the type changed and the shared area reset. -/
theorem usedTypes_block :
    ∃ mem, InsideReach recordedTypes (usedTypes, mem) ∧ Lays mem usedTypes.map := by
  have hfit : ∀ xMax, getXYZMaxLen recordedTypes = some xMax →
      FilesFit recordedTypes xMax.toNat := by
    intro xMax hx
    have hsize : getXYZMaxLen recordedTypes = some 301 := by decide
    obtain rfl := Option.some.inj (hsize.symm.trans hx)
    exact recordedTypes_filesFit
  have hreach : Reach (Booted recordedTypes)
      (guarded (fun _ op => op.InWells) (LifeStep recordedTypes)) usedTypes :=
    (((Reach.start bootTypes_booted).step (a := .map (.modbusWrite (fun _ => 9) 1 1 300 false))
      ⟨trivial, .map (.modbusWrite _ _ _ _ _ _)⟩).step (a := .map (.remap 1 2))
      ⟨show 1 ≤ maxWellNum by decide, .map (.remap _ 1 2)⟩).step (a := .factoryReset)
      ⟨trivial, .factoryReset _⟩
  obtain ⟨-, mem, hmem⟩ := (block_life recordedTypes).2 hfit usedTypes hreach
  exact ⟨mem, hmem, (block_life recordedTypes).1 _ mem hmem⟩

end Block

end RtuA118
