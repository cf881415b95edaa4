import RtuA118.Map.Life
import RtuA118.Map.LoaderBounds
import RtuA118.Map.RegisterFile

/-!
# RtuA118.Map.Integrity

Mapping integrity over the life of the map.

The register array holds indices and plain words side by side, told apart by the kind
beside each word. `MappedInside` says that what is told to be an index is one. Two
things can break it: rows that lie outside the block (`FilesFit` rules them out, see
`RtuA118.Map.LoaderBounds`), and the history answer, which stores values without
looking at the kind. `integrity_run` says that over files that fit nothing else does,
and that between loads, changes of type and resets the mapping stays as it is.
-/

namespace RtuA118

open Run (Steps guarded)

/-! ### Indices inside -/

/-- Every word told to be an index is below the block size. -/
def Tables.MappedInside (tb : Tables) : Prop :=
  ∀ r, tb.ramYMapType r = .ram → (tb.ramY r).toNat < tb.xMax

theorem Tables.MappedInside.indexesInside {m : MapT} (h : m.tables.MappedInside) :
    m.IndexesInside := fun w y _ _ _ hr => h (yBase w + y) hr

theorem SameMapping.mappedInside {m m' : MapT} (h : SameMapping m m')
    (hin : m.tables.MappedInside) : m'.tables.MappedInside := by
  intro r hr
  rw [MapT.tables_ramYMapType, h.regType] at hr
  rw [MapT.tables_ramY, MapT.tables_xMax, h.index r hr, h.xMax]
  exact hin r hr

/-- Rows inside the block keep it. -/
theorem Tables.MappedInside.loadCells {xb yb : Nat} : ∀ {cs : List RowCell} {tb : Tables},
    tb.MappedInside → (∀ c ∈ cs, c.x.toNat < tb.xMax) → (tb.loadCells xb yb cs).MappedInside := by
  intro cs
  induction cs with
  | nil => intro tb h _; exact h
  | cons c cs ih =>
      intro tb h hcs
      have hsplit : tb.loadCells xb yb (c :: cs)
          = (tb.loadCells xb yb [c]).loadCells xb yb cs := Tables.loadCells_append xb yb [c] cs tb
      rw [hsplit]
      refine ih (fun r hr => ?_) fun d hd => hcs d (List.mem_cons_of_mem _ hd)
      show (Function.update tb.ramY (yb + c.y.toNat) c.x r).toNat < tb.xMax
      by_cases hry : r = yb + c.y.toNat
      · rw [hry, Function.update_self]
        exact hcs c List.mem_cons_self
      · rw [Function.update_of_ne hry]
        exact h r ((Function.update_of_ne hry _ _).symm.trans hr)

/-- So does a copy: it takes words and kinds from the same registers. -/
theorem Tables.MappedInside.copyWell {tb : Tables} (k : Nat) (h : tb.MappedInside) :
    (tb.copyWell k).MappedInside := by
  intro r hr
  unfold Tables.copyWell Store.copy at hr ⊢
  dsimp only at hr ⊢
  split at hr
  · rename_i hc
    rw [if_pos hc]
    exact h _ hr
  · rename_i hc
    rw [if_neg hc]
    exact h _ hr

/-! ### The boot -/

theorem LoadEvent.run_mappedInside {m : MapT} {e : LoadEvent} (h : m.tables.MappedInside)
    (he : e.IndexInside m.xMax) : (e.run m).tables.MappedInside := by
  cases e with
  | row k b1 b2 c =>
      have hrow : ∀ d ∈ [c], d.x.toNat < m.tables.xMax := fun d hd => List.mem_singleton.1 hd ▸ he
      exact h.loadCells hrow
  | copy b2 k => exact h.copyWell k
  | defaultType k => exact h

theorem runEvents_mappedInside : ∀ {es : List LoadEvent} {m : MapT}, m.tables.MappedInside →
    (∀ e ∈ es, e.IndexInside m.xMax) → (runEvents es m).tables.MappedInside := by
  intro es
  induction es with
  | nil => intro m h _; exact h
  | cons e es ih =>
      intro m h hes
      refine ih (LoadEvent.run_mappedInside h (hes e List.mem_cons_self)) fun e' he' => ?_
      rw [LoadEvent.run_xMax]
      exact hes e' (List.mem_cons_of_mem _ he')

theorem mapInit_mappedInside {env : Platform} {f1 f2 : Option FlashFile} {n : Nat} {m : MapT}
    (h : mapInit env f1 f2 n = some m) (hfit : LoadFits env m.xMax f1 f2) :
    m.tables.MappedInside := by
  rw [mapInit_runEvents h]
  refine runEvents_mappedInside (fun r hr => ?_) fun e he => (hfit.inside h e he).index
  cases hr

/-! ### The files -/

theorem FilesFit.loadFits {env : Platform} {xMax : Nat} (h : FilesFit env xMax)
    (f1 f2 : Option FlashFile) : LoadFits env xMax f1 f2 where
  block := h.block
  commonCell := h.commonCell
  commonFlash1 := fun _ => h.commonFlash1
  commonRegister := h.commonRegister
  unlisted := fun _ _ _ => h.defaultCell
  typeRegister := fun k _ => h.typeRegister (typeAtBoot env xMax f1 f2 k)

/-- The block size is the scan's. -/
def Sized (env : Platform) (m : MapT) : Prop :=
  ∃ xMax, getXYZMaxLen env = some xMax ∧ xMax ≠ 0 ∧ m.xMax = xMax.toNat

theorem mapInit_sized {env : Platform} {f1 f2 : Option FlashFile} {n : Nat} {m : MapT}
    (h : mapInit env f1 f2 n = some m) : Sized env m := by
  obtain ⟨xMax, -, hx, hx0, -, -⟩ := mapInit_ok h
  obtain ⟨xMax', hx', hm⟩ := mapInit_xMax h
  obtain rfl : xMax' = xMax := Option.some.inj (hx'.symm.trans hx)
  exact ⟨xMax', hx, hx0, hm⟩

/-- A change of type overlays rows of a listed file, so it keeps the indices inside. -/
theorem Tables.MappedInside.remap {env : Platform} {m : MapT} (hsize : Sized env m)
    (h : m.tables.MappedInside) (w : Nat) (t : UInt16) :
    (m.tables.remap env w t).MappedInside := by
  obtain ⟨xMax, hx, hx0, hm⟩ := hsize
  refine h.loadCells fun c hc => ?_
  unfold Tables.remapCells at hc
  split at hc
  · cases hc
  · split at hc
    · cases hc
    · rename_i path hp
      rw [MapT.tables_xMax, hm]
      exact fileCells_lt_of_listed hx hx0 (listed_of_getMap00Path hp) c hc

/-! ### Registers written -/

/-- The register leads to the well type. -/
def MapT.LeadsToType (m : MapT) (w y : Nat) : Prop :=
  m.ramYMapType (yBase w + y) = .ram ∧ m.cellOf w y = mapChangeWellType ∧
    m.ramXMapRw (m.xBase w + mapChangeWellType) = .rw ∧
    m.ramXMapType (m.xBase w + mapChangeWellType) = .sys

instance (m : MapT) (w y : Nat) : Decidable (m.LeadsToType w y) :=
  inferInstanceAs (Decidable (_ ∧ _))

/-- A change of one well's type, over the tables. -/
def Remapped (env : Platform) (m m' : MapT) : Prop :=
  ∃ w t, m'.tables = m.tables.remap env w t

theorem Remapped.mappedInside {env : Platform} {m m' : MapT} (hsize : Sized env m)
    (h : m.tables.MappedInside) (hre : Remapped env m m') : m'.tables.MappedInside := by
  obtain ⟨w, t, hre⟩ := hre
  rw [hre]
  exact h.remap hsize w t

/-- A cell's write keeps the mapping, unless the cell is the well type with its code. -/
theorem writeCell_mapping (env : Platform) (w i : Nat) (v : UInt16) (s : Rtu) :
    (i = mapChangeWellType ∧ s.map.ramXMapType (s.map.xBase w + i) = .sys ∧
        Remapped env s.map (writeCell env w i v s).2.map) ∨
      (¬ (i = mapChangeWellType ∧ s.map.ramXMapType (s.map.xBase w + i) = .sys) ∧
        SameMapping s.map (writeCell env w i v s).2.map) := by
  have ht : (writeCell env w i v s).2.map.tables = _ := writeCell_tables
  split at ht
  · rename_i h
    exact .inl ⟨h.1, h.2, w, v, ht⟩
  · rename_i h
    exact .inr ⟨h, .of_tables ht⟩

/-- A register's write keeps the mapping, unless it leads to the well type. -/
theorem WriteLoop.turn_mapping {env : Platform} {buf : Nat → UInt16} {bigL : Bool} {w : Nat}
    {c : WriteLoop} (hw : 1 ≤ w) (hw8 : w ≤ maxWellNum) :
    (c.rtu.map.LeadsToType w c.i ∧ Remapped env c.rtu.map (c.turn env buf bigL w).rtu.map) ∨
      SameMapping c.rtu.map (c.turn env buf bigL w).rtu.map := by
  unfold WriteLoop.turn
  dsimp only
  split
  · rename_i hnull
    exact .inr (.setRamY (by simp [hnull]))
  · rename_i hram
    split
    · exact .inr (.refl _)
    · rename_i hrw
      dsimp only
      rw [zigbeeWriteRegisters_one hw hw8]
      split
      · rcases writeCell_mapping env w (c.rtu.map.cellOf w c.i) _ c.rtu with
          ⟨h0, hsys, hre⟩ | ⟨-, hsame⟩
        · rw [h0] at hsys hrw
          exact .inl ⟨⟨hram, h0, not_not.1 hrw, hsys⟩, hre⟩
        · exact .inr hsame
      · exact .inr (.refl _)
  · exact .inr (.refl _)

theorem SameMapping.leadsToType {m m' : MapT} {w y : Nat} (h : SameMapping m m')
    (hl : m'.LeadsToType w y) : m.LeadsToType w y := by
  obtain ⟨hr, hc, hrw, hk⟩ := hl
  rw [h.regType] at hr
  rw [h.cellOf hr] at hc
  rw [h.cellRw, h.xBase] at hrw
  rw [h.cellType, h.xBase] at hk
  exact ⟨hr, hc, hrw, hk⟩

theorem Sized.xMax_eq {env : Platform} {m m' : MapT} (h : Sized env m) (h' : Sized env m') :
    m.xMax = m'.xMax := by
  obtain ⟨xMax, hx, -, hm⟩ := h
  obtain ⟨xMax', hx', -, hm'⟩ := h'
  obtain rfl : xMax = xMax' := Option.some.inj (hx.symm.trans hx')
  rw [hm, hm']

section Writes

variable {env : Platform} {buf : Nat → UInt16} {bigL : Bool} {s : Rtu}

theorem Sized.of_xMax {m m' : MapT} (h : Sized env m) (hx : m'.xMax = m.xMax) : Sized env m' := by
  obtain ⟨xMax, hscan, h0, hm⟩ := h
  exact ⟨xMax, hscan, h0, hx.trans hm⟩

theorem modbusWriteLoop_mappedInside {w addr : Nat} (hw : 1 ≤ w) (hw8 : w ≤ maxWellNum)
    (hsize : Sized env s.map) (h : s.map.tables.MappedInside) (n : Nat) :
    Sized env (modbusWriteLoop env buf bigL w addr s n).rtu.map ∧
      (modbusWriteLoop env buf bigL w addr s n).rtu.map.tables.MappedInside := by
  induction n with
  | zero => exact ⟨hsize, h⟩
  | succ n ih =>
      obtain ⟨hsize, h⟩ := ih
      rw [modbusWriteLoop]
      refine ⟨hsize.of_xMax WriteLoop.turn_xMax, ?_⟩
      rcases WriteLoop.turn_mapping hw hw8 with ⟨-, hre⟩ | hsame
      · exact hre.mappedInside hsize h
      · exact hsame.mappedInside h

theorem modbusWriteLoop_sameMapping {w addr : Nat} (hw : 1 ≤ w) (hw8 : w ≤ maxWellNum) (n : Nat)
    (hl : ∀ k < n, ¬ s.map.LeadsToType w (addr + k)) :
    SameMapping s.map (modbusWriteLoop env buf bigL w addr s n).rtu.map := by
  induction n with
  | zero => exact .refl _
  | succ n ih =>
      have hsame := ih fun k hk => hl k (Nat.lt_succ_of_lt hk)
      rw [modbusWriteLoop]
      rcases WriteLoop.turn_mapping hw hw8 with ⟨hlead, -⟩ | hturn
      · rw [modbusWriteLoop_i] at hlead
        exact absurd (hsame.leadsToType hlead) (hl n (Nat.lt_succ_self n))
      · exact hsame.trans hturn

/-- The external write reaches the well type. -/
def MapT.WritesType (m : MapT) (len wellNum addr : Int) : Prop :=
  registerArgsOk len wellNum addr = true ∧
    ∃ k < len.toNat, m.LeadsToType wellNum.toNat (addr.toNat + k)

variable {len wellNum addr : Int}

theorem mapModbusWriteRegisters_mappedInside (hsize : Sized env s.map)
    (h : s.map.tables.MappedInside) :
    (mapModbusWriteRegisters env buf len wellNum addr bigL s).2.map.tables.MappedInside := by
  unfold mapModbusWriteRegisters modbusWriteLanded
  split
  · rename_i hok
    obtain ⟨hw8, hw, -⟩ := registerArgsOk_iff.1 hok
    exact (modbusWriteLoop_mappedInside (by omega) (Int.toNat_le.2 hw8) hsize h _).2
  · exact h

theorem mapModbusWriteRegisters_sameMapping (hl : ¬ s.map.WritesType len wellNum addr) :
    SameMapping s.map (mapModbusWriteRegisters env buf len wellNum addr bigL s).2.map := by
  unfold mapModbusWriteRegisters modbusWriteLanded
  split
  · rename_i hok
    obtain ⟨hw8, hw, -⟩ := registerArgsOk_iff.1 hok
    exact modbusWriteLoop_sameMapping (by omega) (Int.toNat_le.2 hw8) _
      fun k hk hlead => hl ⟨hok, k, hk, hlead⟩
  · exact .refl _

theorem writeCells_mappedInside {w : Nat} : ∀ {vs : List UInt16} {i : Nat} {s : Rtu},
    Sized env s.map → s.map.tables.MappedInside →
    (writeCells env w i vs s).2.map.tables.MappedInside := by
  intro vs
  induction vs with
  | nil => intro i s _ h; exact h
  | cons v vs ih =>
      intro i s hsize h
      have hcell : (writeCell env w i v s).2.map.tables.MappedInside := by
        rcases writeCell_mapping env w i v s with ⟨-, -, hre⟩ | ⟨-, hsame⟩
        · exact hre.mappedInside hsize h
        · exact hsame.mappedInside h
      have hsize' : Sized env (writeCell env w i v s).2.map := hsize.of_xMax writeCell_xMax
      unfold writeCells
      split
      · rename_i s' hs'
        rw [hs'] at hcell hsize'
        exact ih hsize' hcell
      · rename_i s' hs'
        rw [hs'] at hcell
        exact hcell

/-- The internal write starts at the well type with its code. -/
def MapT.StoresType (m : MapT) (len wellNum addr : Int) : Prop :=
  cellArgsOk m len wellNum addr = true ∧ addr.toNat = mapChangeWellType ∧
    m.ramXMapType (m.xBase wellNum.toNat + mapChangeWellType) = .sys

theorem writeCells_sameMapping {w i : Nat} {vs : List UInt16}
    (h0 : ¬ (i = mapChangeWellType ∧ s.map.ramXMapType (s.map.xBase w + i) = .sys)) :
    SameMapping s.map (writeCells env w i vs s).2.map := by
  cases vs with
  | nil => exact .refl _
  | cons v vs =>
      have hcell : SameMapping s.map (writeCell env w i v s).2.map := by
        rcases writeCell_mapping env w i v s with ⟨hi, hsys, -⟩ | ⟨-, hsame⟩
        · exact absurd ⟨hi, hsys⟩ h0
        · exact hsame
      unfold writeCells
      split
      · rename_i s' hs'
        rw [hs'] at hcell
        -- only the first cell can be the well type
        exact hcell.trans (.of_tables (writeCells_tables (Nat.le_add_left 1 i)))
      · rename_i s' hs'
        rw [hs'] at hcell
        exact hcell

theorem zigbeeWriteRegisters_mappedInside (hsize : Sized env s.map)
    (h : s.map.tables.MappedInside) :
    (zigbeeWriteRegisters env buf len wellNum addr s).2.map.tables.MappedInside := by
  unfold zigbeeWriteRegisters
  split
  · exact writeCells_mappedInside hsize h
  · exact h

theorem zigbeeWriteRegisters_sameMapping (hl : ¬ s.map.StoresType len wellNum addr) :
    SameMapping s.map (zigbeeWriteRegisters env buf len wellNum addr s).2.map := by
  unfold zigbeeWriteRegisters
  split
  · rename_i hok
    exact writeCells_sameMapping fun h => hl ⟨hok, h.1, h.1 ▸ h.2⟩
  · exact .refl _

theorem zigbeeWriteRegistersMset_sameMapping (s : Rtu) (v : UInt16) (len wellNum addr : Int) :
    SameMapping s.map (zigbeeWriteRegistersMset v len wellNum addr s).2.map := by
  unfold zigbeeWriteRegistersMset
  split <;> exact .of_tables rfl

/-- The registers that a store of recorded values writes are unmapped. -/
def MapT.StoreUnmapped (m : MapT) (len wellNum addr : Int) : Prop :=
  registerArgsOk len wellNum addr = true →
    ∀ k < m.recordCount wellNum.toNat len.toNat,
      m.ramYMapType (yBase wellNum.toNat + (addr.toNat + k)) ≠ .ram

theorem mapModbusWriteDataRegisters_sameMapping (buf : Nat → UInt16) (bigL : Bool)
    (hnull : s.map.StoreUnmapped len wellNum addr) :
    SameMapping s.map (mapModbusWriteDataRegisters buf len wellNum addr bigL s).2.map := by
  unfold mapModbusWriteDataRegisters
  split
  · rename_i hok
    obtain ⟨-, hx, htype, -, hrw, hreg, hy⟩ :=
      dataWriteLoop_spec buf bigL wellNum.toNat addr.toNat s len.toNat
    refine ⟨hx, htype, hrw, hreg, fun r hr => hy r fun k hk heq => ?_⟩
    exact hnull hok k hk (heq ▸ hr)
  · exact .refl _

end Writes

/-! ### Runs -/

namespace LifeOp

/-- The step loads rows: a boot, a reset, or a change of type by whatever route. -/
def Reloads (s : Rtu) : LifeOp → Prop
  | .map (.modbusWrite _ len wellNum addr _) => s.map.WritesType len wellNum addr
  | .map (.internalWrite _ len wellNum addr) => s.map.StoresType len wellNum addr
  | .map (.remap _ _) | .map .reboot | .factoryReset => True
  | .map (.mset _ _ _ _) | .map .elsewhere | .dataWrite _ _ _ _ _ => False

/-- A store of recorded values writes unmapped registers only. -/
def StoresUnmapped (s : Rtu) : LifeOp → Prop
  | .dataWrite _ len wellNum addr _ => s.map.StoreUnmapped len wellNum addr
  | _ => True

end LifeOp

/-- A step that loads nothing keeps the mapping. -/
theorem LifeStep.sameMapping {env : Platform} {s s' : Rtu} {op : LifeOp} (h : LifeStep env s op s')
    (hstore : op.StoresUnmapped s) (hload : ¬ op.Reloads s) : SameMapping s.map s'.map := by
  cases h with
  | factoryReset => exact absurd trivial hload
  | dataWrite => exact mapModbusWriteDataRegisters_sameMapping _ _ hstore
  | map h =>
      cases h with
      | modbusWrite => exact mapModbusWriteRegisters_sameMapping hload
      | internalWrite => exact zigbeeWriteRegisters_sameMapping hload
      | mset => exact zigbeeWriteRegistersMset_sameMapping _ _ _ _ _
      | remap => exact absurd trivial hload
      | reboot => exact absurd trivial hload
      | elsewhere hm => exact hm ▸ .refl _

/-- Every step keeps the indices inside. -/
theorem LifeStep.mappedInside {env : Platform} {s s' : Rtu} {op : LifeOp} (h : LifeStep env s op s')
    (hfit : FilesFit env s.map.xMax) (hstore : op.StoresUnmapped s) (hsize : Sized env s.map)
    (hin : s.map.tables.MappedInside) : Sized env s'.map ∧ s'.map.tables.MappedInside := by
  cases h with
  | factoryReset =>
      refine ⟨hsize.of_xMax ?_, ?_⟩
      · exact congrArg Tables.xMax resetFlash1ToDefault_tables
      · rw [resetFlash1ToDefault_tables]
        exact hin.loadCells hfit.commonCell
  | dataWrite buf len wellNum addr bigL =>
      have hsame := mapModbusWriteDataRegisters_sameMapping buf bigL hstore
      exact ⟨hsize.of_xMax hsame.xMax, hsame.mappedInside hin⟩
  | map h =>
      cases h with
      | modbusWrite =>
          exact ⟨hsize.of_xMax mapModbusWriteRegisters_xMax,
            mapModbusWriteRegisters_mappedInside hsize hin⟩
      | internalWrite =>
          exact ⟨hsize.of_xMax zigbeeWriteRegisters_xMax,
            zigbeeWriteRegisters_mappedInside hsize hin⟩
      | mset v len wellNum addr =>
          have hsame := zigbeeWriteRegistersMset_sameMapping s v len wellNum addr
          exact ⟨hsize.of_xMax hsame.xMax, hsame.mappedInside hin⟩
      | remap wellNum wellType =>
          refine ⟨hsize.of_xMax mapItemRemap_xMax, ?_⟩
          rw [mapItemRemap_tables]
          exact hin.remap hsize wellNum wellType
      | reboot hinit =>
          -- a reboot sizes its blocks by the same files
          have hsize' := mapInit_sized hinit
          exact ⟨hsize', mapInit_mappedInside hinit
            ((hsize.xMax_eq hsize' ▸ hfit).loadFits _ _)⟩
      | elsewhere hm => exact hm ▸ ⟨hsize, hin⟩

/-- **Mapping integrity.** Over mapping files that fit, in every run whose stores of
recorded values write unmapped registers: mapped registers hold indices of their
blocks, and only loads, changes of type and resets touch a mapped register. -/
theorem integrity_run (env : Platform) (s0 s : Rtu) (hboot : Booted env s0)
    (hfit : FilesFit env s0.map.xMax)
    (hrun : Steps (guarded (fun s op => op.StoresUnmapped s) (LifeStep env)) s0 s) :
    s.map.IndexesInside ∧
      ∀ op s', op.StoresUnmapped s → LifeStep env s op s' → ¬ op.Reloads s →
        ∀ r, s.map.ramYMapType r = .ram →
          s'.map.ramYMapType r = .ram ∧ s'.map.ramY r = s.map.ramY r := by
  have hinv : s.map.xMax = s0.map.xMax ∧ Sized env s.map ∧ s.map.tables.MappedInside := by
    induction hrun with
    | refl =>
        obtain ⟨f1, f2, n, m, hinit, rfl⟩ := hboot
        exact ⟨rfl, mapInit_sized hinit, mapInit_mappedInside hinit (hfit.loadFits f1 f2)⟩
    | tail _ hstep ih =>
        obtain ⟨hx, hsize, hin⟩ := ih
        obtain ⟨op, hguard, hstep⟩ := hstep
        obtain ⟨hsize', hin'⟩ := hstep.mappedInside (hx ▸ hfit) hguard hsize hin
        exact ⟨(hsize.xMax_eq hsize').symm.trans hx, hsize', hin'⟩
  refine ⟨hinv.2.2.indexesInside, fun op s' hguard hstep hload r hr => ?_⟩
  have hsame := hstep.sameMapping hguard hload
  exact ⟨hsame.regType ▸ hr, hsame.index r hr⟩

/-- A type with a recorded cell behind a register of the history answer. -/
def recordedAnswer : Platform := .bare fun path =>
  if path = pathMap0 then some "1,/a".toList
  else if path = pathMap1 then some "0,40001,1,RW,SYS".toList
  else if path = "/a".toList then some "300,47020,0,RECORD".toList
  else none

def bootAnswer : MapT := (mapInit recordedAnswer none (some (typedFlash 1)) 0).get (by decide)

theorem bootAnswer_booted : Booted recordedAnswer (.start bootAnswer) :=
  ⟨none, some (typedFlash 1), 0, bootAnswer, by simp [bootAnswer], rfl⟩

/-- The answer stores a value where the register's index was. -/
theorem not_integrity_run : ¬ ∀ (env : Platform) (s0 s : Rtu), Booted env s0 →
    Steps (LifeStep env) s0 s → s.map.IndexesInside := by
  intro h
  have hin := h recordedAnswer (.start bootAnswer) _ bootAnswer_booted
    (.one (.dataWrite (.start bootAnswer) (fun _ => 9999) 301 1 historyData false))
  exact absurd (hin 1 7019 (by decide) (by decide) (by decide) (by decide +kernel))
    (by decide +kernel)

/-- Two types, each with a recorded register of its own. -/
def recordedTypes : Platform := .bare fun path =>
  if path = pathMap0 then some "1,/a\n2,/b".toList
  else if path = pathMap1 then some "0,40001,1,RW,SYS".toList
  else if path = "/a".toList then some "300,40301,0,RW,RECORD".toList
  else if path = "/b".toList then some "300,40302,0,RW,RECORD".toList
  else none

theorem recordedTypes_filesFit : FilesFit recordedTypes 301 where
  block := by decide
  commonCell := by decide
  commonFlash1 := by decide
  commonRegister := by decide
  defaultCell := by decide
  typeRegister := by
    intro t
    have hpath : getMap00Path recordedTypes t
        = if t = 1 then some "/a".toList else if t = 2 then some "/b".toList else none := rfl
    unfold bootPath
    rw [hpath]
    split
    · decide
    · split <;> decide

def bootTypes : MapT := (mapInit recordedTypes none (some (typedFlash 1)) 0).get (by decide)

theorem bootTypes_booted : Booted recordedTypes (.start bootTypes) :=
  ⟨none, some (typedFlash 1), 0, bootTypes, by simp [bootTypes], rfl⟩

/-- A register written, the type changed and the shared area reset. -/
def usedTypes : Rtu :=
  let s := (mapModbusWriteRegisters recordedTypes (fun _ => 9) 1 1 300 false (.start bootTypes)).2
  (resetFlash1ToDefault recordedTypes (mapItemRemap recordedTypes 1 2 s).2).2

theorem usedTypes_steps :
    Steps (guarded (fun s op => op.StoresUnmapped s) (LifeStep recordedTypes)) (.start bootTypes)
      usedTypes := by
  have hwrite : LifeStep recordedTypes _ _ _ :=
    .map (.modbusWrite (.start bootTypes) (fun _ => 9) 1 1 300 false)
  refine (Steps.one ⟨?_, hwrite⟩).trans ((Steps.one ⟨?_, .map (.remap _ 1 2)⟩).trans
    (.one ⟨?_, .factoryReset _⟩)) <;> trivial

/-- The recorded value goes to register 7019, which no row maps. -/
theorem usedTypes_storeUnmapped : usedTypes.map.StoreUnmapped 301 1 historyData :=
  fun _ => by decide +kernel

/-- The answer of a history request after all that. -/
theorem usedTypes_integrity :
    (mapModbusWriteDataRegisters (fun _ => 9999) 301 1 historyData false usedTypes).2.map
        |>.IndexesInside :=
  (integrity_run recordedTypes (.start bootTypes) _ bootTypes_booted recordedTypes_filesFit
    (usedTypes_steps.trans (.one (a := .dataWrite (fun _ => 9999) 301 1 historyData false)
      ⟨usedTypes_storeUnmapped, .dataWrite usedTypes (fun _ => 9999) 301 1 historyData false⟩))).1

end RtuA118
