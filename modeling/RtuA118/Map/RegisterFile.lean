import RtuA118.Map.RemapBoot
import RtuA118.Map.Stores

/-!
# RtuA118.Map.RegisterFile

The register map seen from outside: a file of words, and for each register of each
well the word it stands for (`storageOf`).

An unmapped register is a word of its own. A mapped one stands for its cell, which
only its well has, unless the cell lives in the shared flash: that word all wells
have in common. `write_read` is the law of such a file: a write through one
register is seen through exactly the registers that stand for the same word.

The law is about cells without code behind them (`MapKind.Plain`), and about maps
whose registers lead inside their blocks (`MapT.Integrity`).
-/

namespace RtuA118

/-! ### Registers that lead inside -/

/-- Every mapped register holds an index of its well's block. -/
def MapT.IndexesInside (m : MapT) : Prop :=
  ∀ w y, 1 ≤ w → w ≤ maxWellNum → y < maxRegisterNum → m.ramYMapType (yBase w + y) = .ram →
    m.cellOf w y < m.xMax

/-- Mapping integrity: every mapped register holds an index of its well's block, and
of the shared flash where its cell lives there. -/
structure MapT.Integrity (m : MapT) : Prop where
  inside : m.IndexesInside
  shared : ∀ w y, 1 ≤ w → w ≤ maxWellNum → y < maxRegisterNum →
    m.ramYMapType (yBase w + y) = .ram →
    m.ramXMapType (m.xBase w + m.cellOf w y) = .flash1 → m.cellOf w y < flash1MaxLen

/-- A cell's address determines its well and its index. -/
theorem MapT.xBase_add_inj {m : MapT} {w w' i i' : Nat} (hw : 1 ≤ w) (hw' : 1 ≤ w')
    (hi : i < m.xMax) (hi' : i' < m.xMax) :
    m.xBase w + i = m.xBase w' + i' ↔ w = w' ∧ i = i' := by
  unfold MapT.xBase
  constructor
  · intro h
    have hpos : 0 < m.xMax := by omega
    have hdiv := congrArg (· / m.xMax) h
    simp only [Nat.mul_add_div hpos, Nat.div_eq_of_lt hi, Nat.div_eq_of_lt hi'] at hdiv
    have hww : w = w' := by omega
    subst hww
    omega
  · rintro ⟨rfl, rfl⟩
    rfl

theorem yBase_add_inj {w w' y y' : Nat} (hw : 1 ≤ w) (hw' : 1 ≤ w') (hy : y < maxRegisterNum)
    (hy' : y' < maxRegisterNum) : yBase w + y = yBase w' + y' ↔ w = w' ∧ y = y' := by
  unfold yBase maxRegisterNum at *
  omega

/-! ### The words registers stand for -/

/-- Kinds of cells without code behind them. -/
def MapKind.Plain (k : MapKind) : Prop := k = .null ∨ k = .ram ∨ k = .flash1 ∨ k = .flash2

instance (k : MapKind) : Decidable k.Plain := inferInstanceAs (Decidable (_ ∨ _))

/-- A word of the file. -/
inductive Storage where
  /-- The own word of an unmapped register. -/
  | own (w y : Nat)
  /-- A cell of one well, in RAM or in the second flash. -/
  | cell (w i : Nat)
  /-- A word of the first flash. -/
  | shared (i : Nat)
  deriving DecidableEq, Repr

namespace MapT

/-- Where a plain cell lives. -/
def cellStorage (m : MapT) (w i : Nat) : Storage :=
  if m.ramXMapType (m.xBase w + i) = .flash1 then .shared i else .cell w i

/-- The word a register stands for. -/
def storageOf (m : MapT) (w y : Nat) : Storage :=
  if m.ramYMapType (yBase w + y) = .ram then m.cellStorage w (m.cellOf w y) else .own w y

/-- The content of a word. -/
def wordAt (m : MapT) : Storage → UInt16
  | .own w y => m.ramY (yBase w + y)
  | .cell w i =>
    if m.ramXMapType (m.xBase w + i) = .flash2 then m.flash2 (m.xBase w + i)
    else m.ramX (m.xBase w + i)
  | .shared i => m.flash1 i

/-- A word that some register can stand for. -/
def Valid (m : MapT) : Storage → Prop
  | .own w y => 1 ≤ w ∧ y < maxRegisterNum
  | .cell w i => 1 ≤ w ∧ i < m.xMax ∧ m.ramXMapType (m.xBase w + i) ≠ .flash1
  | .shared _ => True

/-- The register is unmapped or leads to a plain cell. -/
def PlainRegister (m : MapT) (w y : Nat) : Prop :=
  m.ramYMapType (yBase w + y) = .null ∨
    m.ramYMapType (yBase w + y) = .ram ∧
      (m.ramXMapType (m.xBase w + m.cellOf w y)).Plain

/-- The register is unmapped or leads to a plain cell that may be written. -/
def WritableRegister (m : MapT) (w y : Nat) : Prop :=
  m.ramYMapType (yBase w + y) = .null ∨
    m.ramYMapType (yBase w + y) = .ram ∧
      (m.ramXMapType (m.xBase w + m.cellOf w y)).Plain ∧
      m.ramXMapRw (m.xBase w + m.cellOf w y) = .rw

instance (m : MapT) (w y : Nat) : Decidable (m.PlainRegister w y) :=
  inferInstanceAs (Decidable (_ ∨ _))

instance (m : MapT) (w y : Nat) : Decidable (m.WritableRegister w y) :=
  inferInstanceAs (Decidable (_ ∨ _))

theorem valid_storageOf {m : MapT} {w y : Nat} (hin : m.IndexesInside) (hw : 1 ≤ w)
    (hw8 : w ≤ maxWellNum) (hy : y < maxRegisterNum) : m.Valid (m.storageOf w y) := by
  unfold storageOf
  split
  · rename_i hram
    unfold cellStorage
    split
    · trivial
    · rename_i hne
      exact ⟨hw, hin w y hw hw8 hy hram, hne⟩
  · exact ⟨hw, hy⟩

end MapT

/-! ### What is not a word of the file -/

/-- The mapping itself: everything in the tables but the own words of unmapped
registers. -/
structure SameMapping (m m' : MapT) : Prop where
  xMax : m'.xMax = m.xMax
  cellType : m'.ramXMapType = m.ramXMapType
  cellRw : m'.ramXMapRw = m.ramXMapRw
  regType : m'.ramYMapType = m.ramYMapType
  index : ∀ r, m.ramYMapType r = .ram → m'.ramY r = m.ramY r

namespace SameMapping

theorem refl (m : MapT) : SameMapping m m := ⟨rfl, rfl, rfl, rfl, fun _ _ => rfl⟩

theorem of_tables {m m' : MapT} (h : m'.tables = m.tables) : SameMapping m m' :=
  ⟨congrArg Tables.xMax h, congrArg Tables.ramXMapType h, congrArg Tables.ramXMapRw h,
    congrArg Tables.ramYMapType h, fun r _ => congrFun (congrArg Tables.ramY h) r⟩

theorem setRamY {m : MapT} {w y : Nat} {v : UInt16} (h : m.ramYMapType (yBase w + y) ≠ .ram) :
    SameMapping m (m.setRamY w y v) := by
  refine ⟨rfl, rfl, rfl, rfl, fun r hr => Function.update_of_ne ?_ _ _⟩
  rintro rfl
  exact h hr

section Same

variable {m m' m'' : MapT} (h : SameMapping m m') {w y : Nat}

include h

theorem trans (h' : SameMapping m' m'') : SameMapping m m'' :=
  ⟨h'.xMax.trans h.xMax, h'.cellType.trans h.cellType, h'.cellRw.trans h.cellRw,
    h'.regType.trans h.regType,
    fun r hr => (h'.index r (h.regType ▸ hr)).trans (h.index r hr)⟩

theorem xBase : m'.xBase w = m.xBase w := congrArg (· * (w - 1)) h.xMax

theorem cellOf (hr : m.ramYMapType (yBase w + y) = .ram) : m'.cellOf w y = m.cellOf w y :=
  congrArg UInt16.toNat (h.index _ hr)

theorem storageOf : m'.storageOf w y = m.storageOf w y := by
  unfold MapT.storageOf MapT.cellStorage
  rw [h.regType, h.cellType, h.xBase]
  split
  · rename_i hr
    rw [h.cellOf hr]
  · rfl

theorem indexesInside (hin : m.IndexesInside) : m'.IndexesInside := by
  intro w y hw hw8 hy hr
  rw [h.regType] at hr
  rw [h.cellOf hr, h.xMax]
  exact hin w y hw hw8 hy hr

theorem integrity (hint : m.Integrity) : m'.Integrity := by
  refine ⟨h.indexesInside hint.inside, fun w y hw hw8 hy hr hk => ?_⟩
  rw [h.regType] at hr
  rw [h.cellType, h.xBase, h.cellOf hr] at hk
  rw [h.cellOf hr]
  exact hint.shared w y hw hw8 hy hr hk

theorem plainRegister (hp : m.PlainRegister w y) : m'.PlainRegister w y := by
  unfold MapT.PlainRegister
  rw [h.regType, h.cellType, h.xBase]
  rcases hp with hnull | ⟨hram, hk⟩
  · exact .inl hnull
  · rw [h.cellOf hram]
    exact .inr ⟨hram, hk⟩

end Same

end SameMapping

/-! ### One plain cell written -/

/-- The map after a plain cell is written. -/
def MapT.putPlain (m : MapT) (w i : Nat) (v : UInt16) : MapT :=
  match m.ramXMapType (m.xBase w + i) with
  | .flash1 => (m.setFlash1 i v).setRamX w i v
  | .flash2 => (m.setFlash2 w i v).setRamX w i v
  | _ => m.setRamX w i v

section PutPlain

variable {m : MapT} {w i : Nat} {v : UInt16}

theorem MapT.tables_putPlain : (m.putPlain w i v).tables = m.tables := by
  unfold MapT.putPlain
  split <;> rfl

@[simp] theorem MapT.putPlain_ramY : (m.putPlain w i v).ramY = m.ramY :=
  congrArg Tables.ramY tables_putPlain

@[simp] theorem MapT.putPlain_ramXMapType : (m.putPlain w i v).ramXMapType = m.ramXMapType :=
  congrArg Tables.ramXMapType tables_putPlain

@[simp] theorem MapT.putPlain_xBase (w' : Nat) : (m.putPlain w i v).xBase w' = m.xBase w' :=
  xBase_eq_of_tables tables_putPlain w'

@[simp] theorem MapT.putPlain_ramX :
    (m.putPlain w i v).ramX = Function.update m.ramX (m.xBase w + i) v := by
  unfold MapT.putPlain
  split <;> rfl

theorem MapT.putPlain_flash1 : (m.putPlain w i v).flash1 =
    if m.ramXMapType (m.xBase w + i) = .flash1 then Function.update m.flash1 i v
    else m.flash1 := by
  unfold MapT.putPlain
  split
  · rename_i hk
    rw [if_pos hk]
    rfl
  · rename_i hk
    rw [if_neg (by simp [hk])]
    rfl
  · rename_i hk _
    rw [if_neg hk]
    rfl

theorem MapT.putPlain_flash2 : (m.putPlain w i v).flash2 =
    if m.ramXMapType (m.xBase w + i) = .flash2 then Function.update m.flash2 (m.xBase w + i) v
    else m.flash2 := by
  unfold MapT.putPlain
  split
  · rename_i hk
    rw [if_neg (by simp [hk])]
    rfl
  · rename_i hk
    rw [if_pos hk]
    rfl
  · rename_i _ hk
    rw [if_neg hk]
    rfl

/-- With its `msync` succeeding the switch on a plain cell is `putPlain`. -/
theorem writeCell_of_synced {env : Platform} {s : Rtu}
    (hmsync : s.map.ramXMapType (s.map.xBase w + i) = .flash1 ∨
      s.map.ramXMapType (s.map.xBase w + i) = .flash2 → env.msync s.msyncs = true)
    (hk : (s.map.ramXMapType (s.map.xBase w + i)).Plain) :
    (writeCell env w i v s).2.map = s.map.putPlain w i v := by
  unfold MapT.putPlain
  rcases hk with hk | hk | hk | hk
  · rw [writeCell, hk]
    rfl
  · rw [writeCell, hk]
    rfl
  · rw [writeCell_flash1 hk, hk]
    exact if_pos (hmsync (.inl hk))
  · rw [writeCell_flash2 hk, hk]
    exact if_pos (hmsync (.inr hk))

theorem writeCell_of_plain {env : Platform} {s : Rtu} (hmsync : ∀ n, env.msync n = true)
    (hk : (s.map.ramXMapType (s.map.xBase w + i)).Plain) :
    (writeCell env w i v s).2.map = s.map.putPlain w i v :=
  writeCell_of_synced (fun _ => hmsync _) hk

/-- **One word of the file is set**, the one the cell lives in. -/
theorem MapT.wordAt_putPlain {st : Storage} (hw : 1 ≤ w) (hi : i < m.xMax) (hst : m.Valid st) :
    (m.putPlain w i v).wordAt st = if m.cellStorage w i = st then v else m.wordAt st := by
  cases st with
  | own w' y =>
      have hne : m.cellStorage w i ≠ .own w' y := by
        unfold cellStorage
        split <;> simp
      rw [if_neg hne, wordAt, wordAt, putPlain_ramY]
  | shared j =>
      rw [wordAt, wordAt, putPlain_flash1, cellStorage]
      by_cases hk : m.ramXMapType (m.xBase w + i) = .flash1
      · rw [if_pos hk, if_pos hk]
        by_cases hij : i = j
        · subst hij
          simp
        · rw [Function.update_of_ne (Ne.symm hij), if_neg (by simpa using hij)]
      · rw [if_neg hk, if_neg hk, if_neg (by simp)]
  | cell w' j =>
      obtain ⟨hw', hj, hne⟩ := hst
      rw [wordAt, wordAt, putPlain_ramXMapType, putPlain_xBase, putPlain_ramX, putPlain_flash2]
      by_cases haddr : m.xBase w + i = m.xBase w' + j
      · obtain ⟨rfl, rfl⟩ := (xBase_add_inj hw hw' hi hj).1 haddr
        rw [cellStorage, if_neg hne, if_pos rfl]
        by_cases hk : m.ramXMapType (m.xBase w + i) = .flash2
        · rw [if_pos hk, if_pos hk, Function.update_self]
        · rw [if_neg hk, Function.update_self]
      · -- another cell: neither of its two words is touched
        have hstore : m.cellStorage w i ≠ .cell w' j := by
          unfold cellStorage
          split
          · simp
          · intro heq
            obtain ⟨rfl, rfl⟩ := Storage.cell.inj heq
            exact haddr rfl
        rw [if_neg hstore, Function.update_of_ne (Ne.symm haddr)]
        congr 1
        split
        · exact Function.update_of_ne (Ne.symm haddr) _ _
        · rfl

end PutPlain

/-! ### Registers read and written -/

section Registers

variable {env : Platform} {s : Rtu} {w y : Nat} {v : UInt16}

/-- A plain register that leads inside its block reads as the word it stands for. -/
theorem mapModbusReadRegisters_word (bigL : Bool) (hw : 1 ≤ w) (hw8 : w ≤ maxWellNum)
    (hy : y < maxRegisterNum) (hp : s.map.PlainRegister w y)
    (hin : s.map.ramYMapType (yBase w + y) = .ram → s.map.cellOf w y < s.map.xMax) :
    mapModbusReadRegisters env s 1 w y bigL
      = some [orderWord bigL (s.map.wordAt (s.map.storageOf w y))] := by
  have hargs : registerArgsOk 1 w y = true := by
    unfold maxWellNum at hw8
    unfold maxRegisterNum at hy
    exact registerArgsOk_iff.2 (by omega)
  have hread : readRegister env s 0xFFFF w y = s.map.wordAt (s.map.storageOf w y) := by
    unfold readRegister MapT.storageOf
    dsimp only
    rcases hp with hnull | ⟨hram, hk⟩
    · rw [hnull]
      rfl
    · have hlt := hin hram
      unfold MapT.cellOf at hlt hk
      rw [hram, if_pos rfl]
      dsimp only
      rw [zigbeeReadRegisters_one hw hw8, if_pos hlt]
      unfold MapT.cellStorage MapT.cellOf readCell
      rcases hk with hk | hk | hk | hk
      · simp [hk, MapT.wordAt]
      · simp [hk, MapT.wordAt]
      · simp [hk, MapT.wordAt]
      · simp [hk, MapT.wordAt]
  unfold mapModbusReadRegisters
  rw [if_pos hargs]
  simp only [Int.toNat_one, Int.toNat_natCast, modbusReadLoop, hread]

theorem mapModbusReadRegisters_plain (bigL : Bool) (hin : s.map.IndexesInside) (hw : 1 ≤ w)
    (hw8 : w ≤ maxWellNum) (hy : y < maxRegisterNum) (hp : s.map.PlainRegister w y) :
    mapModbusReadRegisters env s 1 w y bigL
      = some [orderWord bigL (s.map.wordAt (s.map.storageOf w y))] :=
  mapModbusReadRegisters_word bigL hw hw8 hy hp (hin w y hw hw8 hy)

/-- The map after one register is written. -/
def MapT.putRegister (m : MapT) (w y : Nat) (v : UInt16) : MapT :=
  if m.ramYMapType (yBase w + y) = .ram then m.putPlain w (m.cellOf w y) v else m.setRamY w y v

theorem mapModbusWriteRegisters_plain (v : UInt16) (bigL : Bool)
    (hmsync : ∀ n, env.msync n = true) (hin : s.map.IndexesInside) (hw : 1 ≤ w)
    (hw8 : w ≤ maxWellNum) (hy : y < maxRegisterNum)
    (hp : s.map.WritableRegister w y) :
    (mapModbusWriteRegisters env (fun _ => orderWord bigL v) 1 w y bigL s).2.map
      = s.map.putRegister w y v := by
  have horder : orderWord bigL (orderWord bigL v) = v := by
    cases bigL
    · rfl
    · simp [orderWord]
  unfold mapModbusWriteRegisters
  rw [show (1 : Int) = ((1 : Nat) : Int) from rfl, modbusWriteLanded_of_ok hw hw8 Nat.one_pos hy]
  simp only [modbusWriteLoop]
  unfold MapT.putRegister
  rcases hp with hnull | ⟨hram, hk, hrw⟩
  · rw [WriteLoop.turn_of_null hnull, if_neg (by simp [hnull])]
    simp only [horder, Rtu.onMap_map]
  · have hlt := hin w y hw hw8 hy hram
    unfold WriteLoop.turn
    dsimp only
    rw [hram]
    dsimp only
    rw [if_neg (not_not.2 hrw), if_pos rfl, zigbeeWriteRegisters_one hw hw8]
    simp only [horder, if_pos hlt]
    exact writeCell_of_plain hmsync hk

theorem MapT.sameMapping_putRegister {m : MapT} : SameMapping m (m.putRegister w y v) := by
  unfold putRegister
  split
  · exact .of_tables tables_putPlain
  · rename_i hne
    exact .setRamY hne

theorem MapT.wordAt_setRamY {m : MapT} {st : Storage} (hw : 1 ≤ w) (hy : y < maxRegisterNum)
    (hst : m.Valid st) :
    (m.setRamY w y v).wordAt st = if Storage.own w y = st then v else m.wordAt st := by
  cases st with
  | own w' y' =>
      obtain ⟨hw', hy'⟩ := hst
      unfold wordAt setRamY
      dsimp only
      by_cases hsame : yBase w + y = yBase w' + y'
      · obtain ⟨rfl, rfl⟩ := (yBase_add_inj hw hw' hy hy').1 hsame
        simp
      · rw [Function.update_of_ne (Ne.symm hsame), if_neg]
        intro heq
        obtain ⟨rfl, rfl⟩ := Storage.own.inj heq
        exact hsame rfl
  | cell w' i => rw [if_neg (by simp)]; rfl
  | shared i => rw [if_neg (by simp)]; rfl

/-- **One word of the file is set**, the one the register stands for. -/
theorem MapT.wordAt_putRegister {m : MapT} {st : Storage} (hin : m.IndexesInside) (hw : 1 ≤ w)
    (hw8 : w ≤ maxWellNum) (hy : y < maxRegisterNum) (hst : m.Valid st) :
    (m.putRegister w y v).wordAt st = if m.storageOf w y = st then v else m.wordAt st := by
  unfold putRegister storageOf
  split
  · rename_i hram
    exact wordAt_putPlain hw (hin w y hw hw8 hy hram) hst
  · exact wordAt_setRamY hw hy hst

end Registers

/-- **The law of the register file.** A word written through one register is read
through the registers that stand for the same word, and through no other. -/
theorem write_read (env : Platform) (s : Rtu) (w y w' y' : Nat) (v : UInt16) (bigL bigL' : Bool)
    (hint : s.map.Integrity) (hmsync : ∀ n, env.msync n = true) (hw : 1 ≤ w)
    (hw8 : w ≤ maxWellNum) (hy : y < maxRegisterNum) (hw' : 1 ≤ w') (hw8' : w' ≤ maxWellNum)
    (hy' : y' < maxRegisterNum) (hwrite : s.map.WritableRegister w y)
    (hread : s.map.PlainRegister w' y') :
    mapModbusReadRegisters env
        (mapModbusWriteRegisters env (fun _ => orderWord bigL v) 1 w y bigL s).2 1 w' y' bigL'
      = if s.map.storageOf w y = s.map.storageOf w' y' then some [orderWord bigL' v]
        else mapModbusReadRegisters env s 1 w' y' bigL' := by
  have hmap := mapModbusWriteRegisters_plain v bigL hmsync hint.inside hw hw8 hy hwrite
  have hsame : SameMapping s.map (s.map.putRegister w y v) := MapT.sameMapping_putRegister
  rw [← hmap] at hsame
  rw [mapModbusReadRegisters_plain bigL' (hsame.indexesInside hint.inside) hw' hw8' hy'
    (hsame.plainRegister hread), hsame.storageOf, hmap,
    MapT.wordAt_putRegister hint.inside hw hw8 hy (MapT.valid_storageOf hint.inside hw' hw8' hy'),
    mapModbusReadRegisters_plain bigL' hint.inside hw' hw8' hy' hread]
  split <;> rfl

/-- Register 40 of every well leads to cell 40, in the first flash. -/
def sharedUnit : Rtu :=
  .start { emptyMap 300 (fun _ => 0) (fun _ => 0) with
    ramXMapType := fun _ => .flash1
    ramXMapRw := fun _ => .rw
    ramY := fun r => UInt16.ofNat (r % 10000)
    ramYMapType := fun r => if r % 10000 = 40 then .ram else .null }

theorem sharedUnit_integrity : sharedUnit.map.Integrity := by
  have hcell : ∀ w y, y < maxRegisterNum → sharedUnit.map.ramYMapType (yBase w + y) = .ram →
      sharedUnit.map.cellOf w y = 40 := by
    intro w y hy hr
    have hmod : (yBase w + y) % 10000 = 40 := by
      by_contra hne
      have hnull : sharedUnit.map.ramYMapType (yBase w + y) = .null := if_neg hne
      rw [hnull] at hr
      cases hr
    show (UInt16.ofNat ((yBase w + y) % 10000)).toNat = 40
    rw [hmod]
    rfl
  refine ⟨fun w y _ _ hy hr => ?_, fun w y _ _ hy hr _ => ?_⟩
  · rw [hcell w y hy hr]
    decide
  · rw [hcell w y hy hr]
    decide

/-- What well 1 writes there, well 2 reads. -/
theorem sharedUnit_write_read :
    mapModbusReadRegisters (.bare fun _ => none)
        (mapModbusWriteRegisters (.bare fun _ => none) (fun _ => orderWord true 7) 1 1 40 true
          sharedUnit).2 1 2 40 true
      = if sharedUnit.map.storageOf 1 40 = sharedUnit.map.storageOf 2 40
        then some [orderWord true 7]
        else mapModbusReadRegisters (.bare fun _ => none) sharedUnit 1 2 40 true :=
  write_read (.bare fun _ => none) sharedUnit 1 40 2 40 7 true true sharedUnit_integrity
    (fun _ => rfl) (by decide) (by decide) (by decide) (by decide) (by decide) (by decide)
    (by decide) (by decide)

end RtuA118
