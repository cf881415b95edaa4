import RtuA118.Map.Defaults
import RtuA118.Map.Life
import RtuA118.Map.RangeRows
import RtuA118.Map.RemapScope
import RtuA118.Map.Restart

/-!
# RtuA118.Map.FactoryReset

What a factory reset leaves of the map.

The reset runs the loader of the common file over well 1 once more, as if the first flash were new
and the second were not. So it sets the shared words of the first flash for all wells and no word
of the second. The other wells' tables are out of its reach as long as the rows stay in the blocks
of well 1; the loader does not look, and a row with a register from 10000 on lands in the next
well.

`reset_shared_iff` says exactly when the other wells keep theirs: where every word such rows give
them is there already (`SpillHeld`), in particular where there are no such rows. It is about boots
that stay inside the arrays; blocks of fewer than 300 cells do not.
-/

namespace RtuA118

open Run (Steps guarded)

/-! ### What is promised of a reset -/

/-- The cells of wells 2 to 8. -/
def MapT.OtherCell (m : MapT) (a : Nat) : Prop := m.xMax ≤ a ∧ a < m.xMax * maxWellNum

/-- The registers of wells 2 to 8. -/
def OtherRegister (b : Nat) : Prop := maxRegisterNum ≤ b ∧ b < maxRegisterNum * maxWellNum

/-- Wells 2 to 8 have the same tables and the same words in `ram_x`. -/
structure MapT.OtherWellsAgree (m m' : MapT) : Prop where
  ramX : ∀ a, m.OtherCell a → m'.ramX a = m.ramX a
  ramXMapType : ∀ a, m.OtherCell a → m'.ramXMapType a = m.ramXMapType a
  ramXMapRecord : ∀ a, m.OtherCell a → m'.ramXMapRecord a = m.ramXMapRecord a
  ramXMapRw : ∀ a, m.OtherCell a → m'.ramXMapRw a = m.ramXMapRw a
  ramY : ∀ b, OtherRegister b → m'.ramY b = m.ramY b
  ramYMapType : ∀ b, OtherRegister b → m'.ramYMapType b = m.ramYMapType b

/-- The reset sets the shared cells for every well and disturbs nothing else. -/
structure ResetShared (env : Platform) (s s' : Rtu) : Prop where
  /-- A cell whose last row is one of the first flash reads that row's default. -/
  default : ∀ w x cur c, 1 ≤ w → w ≤ maxWellNum → x < s'.map.xMax →
    lastRow (fileCells env pathMap1) x = some c → c.flags.mapType = .flash1 →
    s'.map.ramXMapType (s'.map.xBase w + x) = .flash1 → readCell env s' cur w x = c.dV
  flash2 : s'.map.flash2 = s.map.flash2
  wells : s.map.OtherWellsAgree s'.map

/-- Every word that the common file's rows give at last to a register of another well is there
already. -/
structure SpillHeld (env : Platform) (m : MapT) : Prop where
  ramY : Store.Held OtherRegister
    (Tables.regWrites 0 RowCell.x (fileCells env pathMap1)) m.ramY
  ramYMapType : Store.Held OtherRegister
    (Tables.regWrites 0 (fun _ => .ram) (fileCells env pathMap1)) m.ramYMapType

/-- A step that writes no well type and starts no boot. -/
def LifeOp.LeavesTypes (s : Rtu) : LifeOp → Prop
  | .map op => op.LeavesTypes s
  | .factoryReset | .dataWrite _ _ _ _ _ => True

/-! ### The reset over the map -/

section Reset

variable {env : Platform} {s : Rtu}

theorem resetFlash1ToDefault_xMax : (resetFlash1ToDefault env s).2.map.xMax = s.map.xMax :=
  congrArg Tables.xMax resetFlash1ToDefault_tables

/-- Cells of the common file that stay in well 1 are none of the others'. -/
theorem overlay_otherCell {α : Type} {f : Nat → α} {g : RowCell → α} {a : Nat}
    (hcell : ∀ c ∈ fileCells env pathMap1, c.x.toNat < s.map.xMax) (ha : s.map.OtherCell a) :
    Store.overlay f ((fileCells env pathMap1).map fun c => (0 + c.x.toNat, g c)) a = f a := by
  refine Store.overlay_of_not_mem fun hmem => ?_
  obtain ⟨wr, hwr, rfl⟩ := List.mem_map.1 hmem
  obtain ⟨c, hc, rfl⟩ := List.mem_map.1 hwr
  exact Nat.not_le.2 (hcell c hc) (Nat.zero_add c.x.toNat ▸ ha.1)

/-- The other wells keep their cells, and the registers that hold already what they get. -/
theorem otherWellsAgree_iff (hcell : ∀ c ∈ fileCells env pathMap1, c.x.toNat < s.map.xMax) :
    s.map.OtherWellsAgree (resetFlash1ToDefault env s).2.map ↔ SpillHeld env s.map := by
  have hx : (resetFlash1ToDefault env s).2.map.ramX =
      Store.overlay s.map.ramX (wordWrites 0 (fileCells env pathMap1)) := by
    rw [resetFlash1ToDefault_map, ramX_foldl_loadCell]
    rfl
  have htables : (resetFlash1ToDefault env s).2.map.tables = _ := resetFlash1ToDefault_tables
  have htype := congrArg Tables.ramXMapType htables
  have hrecord := congrArg Tables.ramXMapRecord htables
  have hrw := congrArg Tables.ramXMapRw htables
  have hy := congrArg Tables.ramY htables
  have hmap := congrArg Tables.ramYMapType htables
  simp only [MapT.tables_ramXMapType, MapT.tables_ramXMapRecord, MapT.tables_ramXMapRw,
    MapT.tables_ramY, MapT.tables_ramYMapType, Tables.loadCells] at htype hrecord hrw hy hmap
  -- rows laid over a register array leave a word where they give it the word it had
  constructor
  · intro h
    have h5 := h.ramY
    have h6 := h.ramYMapType
    rw [hy] at h5
    rw [hmap] at h6
    exact ⟨Store.overlay_eqOn_iff.1 h5, Store.overlay_eqOn_iff.1 h6⟩
  · rintro ⟨h5, h6⟩
    exact
      { ramX := fun a ha => hx ▸ overlay_otherCell hcell ha
        ramXMapType := fun a ha => htype ▸ overlay_otherCell hcell ha
        ramXMapRecord := fun a ha => hrecord ▸ overlay_otherCell hcell ha
        ramXMapRw := fun a ha => hrw ▸ overlay_otherCell hcell ha
        ramY := hy ▸ Store.overlay_eqOn_iff.2 h5
        ramYMapType := hmap ▸ Store.overlay_eqOn_iff.2 h6 }

/-- Rows whose registers stay in well 1 give the others nothing. -/
theorem spillHeld_of_lt (h : ∀ c ∈ fileCells env pathMap1, c.y.toNat < maxRegisterNum) :
    SpillHeld env s.map := by
  have hreg : ∀ {α : Type} (f : RowCell → α),
      ∀ wr ∈ Tables.regWrites 0 f (fileCells env pathMap1), ¬ OtherRegister wr.1 := by
    intro α f wr hwr
    obtain ⟨c, hc, rfl⟩ := List.mem_map.1 hwr
    exact fun hother => Nat.not_le.2 (h c hc) (Nat.zero_add c.y.toNat ▸ hother.1)
  exact ⟨.of_not_mem (hreg _), .of_not_mem (hreg _)⟩

/-- The shared words, and the second flash. -/
theorem resetShared_iff (hcell : ∀ c ∈ fileCells env pathMap1, c.x.toNat < s.map.xMax) :
    ResetShared env s (resetFlash1ToDefault env s).2 ↔ SpillHeld env s.map := by
  rw [← otherWellsAgree_iff hcell]
  -- the shared words and the second flash are right in any case
  refine ⟨fun h => h.wells, fun h => ⟨?_, ?_, h⟩⟩
  · intro w x cur c _ _ _ hrow hflash hkind
    simp only [readCell, hkind]
    rw [resetFlash1ToDefault_map, foldl_loadCell_lastFlash1]
    exact foldl_last hrow (.inr hflash)
  · rw [resetFlash1ToDefault_map, foldl_loadCell_flash2]

end Reset

/-! ### Over whole runs -/

/-- Such a step keeps the block size. -/
theorem LifeStep.xMax_of_leavesTypes {env : Platform} {s s' : Rtu} {op : LifeOp}
    (h : LifeStep env s op s') (hop : op.LeavesTypes s) : s'.map.xMax = s.map.xMax := by
  cases h with
  | map h => exact (h.sameConfig hop).xMax
  | factoryReset => exact resetFlash1ToDefault_xMax
  | dataWrite buf len wellNum addr bigL =>
      unfold mapModbusWriteDataRegisters
      split
      · exact (dataWriteLoop_spec buf bigL wellNum.toNat addr.toNat s len.toNat).2.1
      · rfl

theorem steps_xMax {env : Platform} {s s' : Rtu}
    (h : Steps (guarded (fun s op => op.LeavesTypes s) (LifeStep env)) s s') :
    s'.map.xMax = s.map.xMax := by
  induction h with
  | refl => rfl
  | tail _ hstep ih =>
      obtain ⟨op, hop, hstep⟩ := hstep
      exact (hstep.xMax_of_leavesTypes hop).trans ih

/-- A boot inside the arrays has room for the cells that are copied. -/
theorem block_of_inArrays {env : Platform} {xMax : Nat} {f1 f2 : Option FlashFile}
    (h : ∀ e ∈ bootEvents env xMax f1 f2, e.InArrays xMax) : flash1MaxLen ≤ xMax := by
  have hlast : LoadEvent.copy (flashOpen (xMax * maxWellNum) f2).1 7 ∈
      bootEvents env xMax f1 f2 :=
    List.mem_append_left _ (List.mem_append_right _
      (List.mem_map_of_mem (List.mem_range'_1.2 (by decide))))
  obtain ⟨-, hroom⟩ := h _ hlast
  unfold maxWellNum at hroom
  omega

/-- **A factory reset in the life of a unit.** With indexes of the common file below 300, after a
boot inside the arrays and any steps that write no well type, it disturbs nothing but the shared
cells exactly when the words that rows of the common file give to other wells are there already,
and so always where the common file's registers are those of well 1. -/
theorem reset_shared_iff (env : Platform) (f1 f2 : Option FlashFile) (n : Nat) (m : MapT) (s : Rtu)
    (hindex : ∀ c ∈ fileCells env pathMap1, c.x.toNat < flash1MaxLen)
    (_ : mapInit env f1 f2 n = some m)
    (hinside : ∀ e ∈ bootEvents env m.xMax f1 f2, e.InArrays m.xMax)
    (hrun : Steps (guarded (fun s op => op.LeavesTypes s) (LifeStep env)) (.start m) s) :
    (ResetShared env s (resetFlash1ToDefault env s).2 ↔ SpillHeld env s.map) ∧
      ((∀ c ∈ fileCells env pathMap1, c.y.toNat < maxRegisterNum) →
        ResetShared env s (resetFlash1ToDefault env s).2) := by
  have hsize : s.map.xMax = m.xMax := steps_xMax hrun
  have hcell : ∀ c ∈ fileCells env pathMap1, c.x.toNat < s.map.xMax := fun c hc =>
    hsize ▸ Nat.lt_of_lt_of_le (hindex c hc) (block_of_inArrays hinside)
  exact ⟨resetShared_iff hcell, fun hreg => (resetShared_iff hcell).2 (spillHeld_of_lt hreg)⟩

/-- The reset of a unit in which a register of well 2 has been written. -/
theorem plainSet_reset :
    ResetShared plainFiles plainSet (resetFlash1ToDefault plainFiles plainSet).2 :=
  (reset_shared_iff plainFiles none none 0 plainBoot plainSet (by decide +kernel) plainBoot_eq
    (plainBoot_fits.inArrays plainBoot_eq)
    (.one (a := .map (.modbusWrite (fun _ => 9) 1 2 300 false))
      ⟨plainSet_leavesTypes, .map (.modbusWrite (.start plainBoot) _ 1 2 300 false)⟩)).2
    (by decide +kernel)

/-- A common file with a register number of the second well's block. -/
def spillRegister : Platform := .bare fun path =>
  if path = pathMap0 then some "1,/usr/share/map_001.csv".toList
  else if path = pathMap1 then some "0,40001,1,RW,SYS\n3,50004,118,WR,FLASH1".toList
  else if path = pathMap001 then some "300,40301,9,RW,FLASH2".toList
  else none

/-- Its first boot. -/
def spillRegisterBoot : MapT := (mapInit spillRegister none none 0).get (by decide)

theorem spillRegisterBoot_eq : mapInit spillRegister none none 0 = some spillRegisterBoot := by
  simp [spillRegisterBoot]

/-- The boot's copies have covered the register, and the reset maps it again. -/
theorem not_reset_shared : ¬ ∀ (env : Platform) (f1 f2 : Option FlashFile) (n : Nat) (m : MapT)
    (s : Rtu), mapInit env f1 f2 n = some m →
    (∀ c ∈ fileCells env pathMap1, c.x.toNat < flash1MaxLen) →
    Steps (guarded (fun s op => op.LeavesTypes s) (LifeStep env)) (.start m) s →
    (resetFlash1ToDefault env s).1 = some 0 →
      ResetShared env s (resetFlash1ToDefault env s).2 := by
  intro h
  have hwells := (h spillRegister none none 0 spillRegisterBoot (.start spillRegisterBoot)
    spillRegisterBoot_eq (by decide +kernel) .refl (by decide +kernel)).wells
  have hkept := hwells.ramYMapType 10003 ⟨by decide, by decide⟩
  have hreset : (resetFlash1ToDefault spillRegister (.start spillRegisterBoot)).2.map.ramYMapType
      10003 = .ram := by decide +kernel
  have hbefore : spillRegisterBoot.ramYMapType 10003 = .null := by decide +kernel
  rw [hreset] at hkept
  exact absurd (hkept.trans hbefore) (by decide)

end RtuA118
