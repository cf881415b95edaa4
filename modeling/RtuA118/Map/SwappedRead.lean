import RtuA118.Map.Integrity

/-!
# RtuA118.Map.SwappedRead

`zigbee_read_registers_big_l`, the copy of `zigbee_read_registers` that can exchange the bytes of
each word.

The copy reads into a word of its own, which it carries from cell to cell, where the original
reads into the caller's buffer. So the two differ where a cell's read leaves that word alone: at
a device that does not answer, and at a kind that neither switch knows, where the original leaves
what the buffer held and the copy writes the word of the cell before. The rows of the mapping
files bring known kinds only (`LifeStep.cellKinds`); what can bring another is a store past the
end of a table.
-/

namespace RtuA118

open Run (Reach)

/-! ### The copy -/

/-- The copy's switch on one cell, `rc` being the word carried. -/
def readCellBigL (env : Platform) (s : Rtu) (rc : UInt16) (w i : Nat) : UInt16 :=
  match s.map.ramXMapType (s.map.xBase w + i) with
  | .null => s.map.ramX (s.map.xBase w + i)
  | .ram => s.map.ramX (s.map.xBase w + i)
  | .flash1 => s.map.flash1 i
  | .flash2 => s.map.flash2 (s.map.xBase w + i)
  | .sys =>
    match mapMapFunRead env s rc w i with
    | none => s.map.ramX (s.map.xBase w + i)
    | some rc => rc
  | .record | .ro | .rw => rc

/-- The copy's loop over `n` cells from `i` on. -/
def readLoopBigL (env : Platform) (s : Rtu) (bigL : Bool) (w : Nat) :
    Nat → Nat → UInt16 → List UInt16
  | 0, _, _ => []
  | n + 1, i, rc =>
    let rc := readCellBigL env s rc w i
    (if bigL then wordOfBytes (hiByte rc) (loByte rc) else rc) ::
      readLoopBigL env s bigL w n (i + 1) rc

/-- `zigbee_read_registers_big_l`; `none` for `-1`. -/
def zigbeeReadRegistersBigL (env : Platform) (s : Rtu) (len wellNum addr : Int) (bigL : Bool) :
    Option (List UInt16) :=
  if cellArgsOk s.map len wellNum addr then
    some (readLoopBigL env s bigL wellNum.toNat len.toNat addr.toNat 0xFFFF)
  else none

/-! ### Kinds that the switch knows -/

/-- The cell table holds these kinds only. -/
def MapT.CellKinds (m : MapT) : Prop := ∀ r, (m.ramXMapType r).IsCell

/-- The cells of a window have these kinds. -/
def WindowKinds (m : MapT) (len wellNum addr : Int) : Prop :=
  ∀ k < len.toNat, (m.ramXMapType (m.xBase wellNum.toNat + (addr.toNat + k))).IsCell

section Kinds

variable {env : Platform} {m m' : MapT}

/-- Rows of files keep the kinds known. -/
theorem MapT.CellKinds.loadCell {xb yb : Nat} {b1 b2 : Bool} {c : RowCell} (h : m.CellKinds)
    (hc : c.flags.mapType.IsCell) : (RtuA118.loadCell xb yb b1 b2 m c).CellKinds := by
  intro r
  show (Function.update m.ramXMapType (xb + c.x.toNat) c.flags.mapType r).IsCell
  by_cases hr : r = xb + c.x.toNat
  · rw [hr, Function.update_self]
    exact hc
  · rw [Function.update_of_ne hr]
    exact h r

theorem MapT.CellKinds.foldl_loadCell {xb yb : Nat} {b1 b2 : Bool} {cs : List RowCell}
    (h : m.CellKinds) (hcs : ∀ c ∈ cs, c.flags.mapType.IsCell) :
    (cs.foldl (RtuA118.loadCell xb yb b1 b2) m).CellKinds :=
  List.foldlRecOn cs _ h fun _ hm c hc => hm.loadCell (hcs c hc)

/-- So does a copy: it takes kinds from the first well. -/
theorem MapT.CellKinds.copyWell {b2 : Bool} (k : Nat) (h : m.CellKinds) :
    (RtuA118.copyWell b2 m k).CellKinds := by
  intro r
  show (Store.copy (k * m.xMax) 0 flash1MaxLen m.ramXMapType r).IsCell
  unfold Store.copy
  split
  · exact h _
  · exact h _

/-! ### The life of the map -/

/-- A row of a file, or no row. -/
def LoadEvent.KnownKind : LoadEvent → Prop
  | .row _ _ _ c => c.flags.mapType.IsCell
  | .copy _ _ | .defaultType _ => True

theorem LoadEvent.run_cellKinds {e : LoadEvent} (h : m.CellKinds) (he : e.KnownKind) :
    (e.run m).CellKinds := by
  cases e with
  | row k b1 b2 c => exact h.loadCell he
  | copy b2 k => exact h.copyWell k
  | defaultType k => exact h

theorem runEvents_cellKinds {es : List LoadEvent} (h : m.CellKinds) (hes : ∀ e ∈ es, e.KnownKind) :
    (runEvents es m).CellKinds :=
  List.foldlRecOn es _ h fun _ hm e he => LoadEvent.run_cellKinds hm (hes e he)

theorem knownKind_of_mem_fileEvents {k : Nat} {b1 b2 : Bool} {path : List Char} :
    ∀ e ∈ fileEvents env k b1 b2 path, e.KnownKind := by
  intro e he
  obtain ⟨c, hc, rfl⟩ := List.mem_map.1 he
  exact isCell_of_mem_fileCells c hc

theorem knownKind_of_mem_typeEvents {b2 : Bool} {k : Nat} {type : UInt16} :
    ∀ e ∈ typeEvents env b2 k type, e.KnownKind := by
  intro e he
  unfold typeEvents at he
  split at he
  · exact knownKind_of_mem_fileEvents e he
  · rcases List.mem_cons.1 he with rfl | he
    · trivial
    · exact knownKind_of_mem_fileEvents e he

theorem knownKind_of_mem_wellsEvents {b2 : Bool} : ∀ {ks : List Nat} {m : MapT},
    ∀ e ∈ wellsEvents env b2 ks m, e.KnownKind := by
  intro ks
  induction ks with
  | nil => exact fun _ he => absurd he List.not_mem_nil
  | cons k ks ih =>
      intro m e he
      rcases List.mem_append.1 he with he | he
      · exact knownKind_of_mem_typeEvents e he
      · exact ih e he

theorem mapInit_cellKinds {f1 f2 : Option FlashFile} {n : Nat} (h : mapInit env f1 f2 n = some m) :
    m.CellKinds := by
  rw [mapInit_runEvents h]
  refine runEvents_cellKinds (fun _ => trivial) fun e he => ?_
  rcases List.mem_append.1 he with he | he
  · rcases List.mem_append.1 he with he | he
    · exact knownKind_of_mem_fileEvents e he
    · obtain ⟨k, -, rfl⟩ := List.mem_map.1 he
      trivial
  · exact knownKind_of_mem_wellsEvents e he

theorem SameMapping.cellKinds (h : SameMapping m m') (hm : m.CellKinds) : m'.CellKinds := by
  intro r
  rw [h.cellType]
  exact hm r

theorem MapT.CellKinds.of_tables (hm : m.CellKinds) (h : m'.tables = m.tables) : m'.CellKinds :=
  SameMapping.cellKinds (.of_tables h) hm

theorem Remapped.cellKinds (h : Remapped env m m') (hm : m.CellKinds) : m'.CellKinds := by
  obtain ⟨w, t, ht⟩ := h
  have hrows : m'.tables = ((Tables.remapCells env w t).foldl
      (RtuA118.loadCell (m.xBase w) (yBase w) false true) m).tables :=
    ht.trans tables_foldl_loadCell.symm
  exact (hm.foldl_loadCell isCell_of_mem_remapCells).of_tables hrows

end Kinds

section Steps

variable {env : Platform} {s s' : Rtu}

theorem modbusWriteLoop_cellKinds {buf : Nat → UInt16} {bigL : Bool} {w addr : Nat} (hw : 1 ≤ w)
    (hw8 : w ≤ maxWellNum) (h : s.map.CellKinds) (n : Nat) :
    (modbusWriteLoop env buf bigL w addr s n).rtu.map.CellKinds := by
  induction n with
  | zero => exact h
  | succ n ih =>
      rw [modbusWriteLoop]
      rcases WriteLoop.turn_mapping hw hw8 with ⟨-, hre⟩ | hsame
      · exact hre.cellKinds ih
      · exact hsame.cellKinds ih

theorem writeCell_cellKinds {w i : Nat} {v : UInt16} (h : s.map.CellKinds) :
    (writeCell env w i v s).2.map.CellKinds := by
  rcases writeCell_mapping env w i v s with ⟨-, -, hre⟩ | ⟨-, hsame⟩
  · exact hre.cellKinds h
  · exact hsame.cellKinds h

theorem writeCells_cellKinds {w : Nat} : ∀ {vs : List UInt16} {i : Nat} {s : Rtu},
    s.map.CellKinds → (writeCells env w i vs s).2.map.CellKinds := by
  intro vs
  induction vs with
  | nil => exact id
  | cons v vs ih =>
      intro i s h
      have hcell : (writeCell env w i v s).2.map.CellKinds := writeCell_cellKinds h
      rw [writeCells]
      split
      · rename_i s' hs'
        rw [hs'] at hcell
        exact ih hcell
      · rename_i s' hs'
        rw [hs'] at hcell
        exact hcell

/-- **Every step keeps the kinds known.** -/
theorem LifeStep.cellKinds {op : LifeOp} (h : LifeStep env s op s') (hs : s.map.CellKinds) :
    s'.map.CellKinds := by
  cases h with
  | factoryReset =>
      rw [resetFlash1ToDefault_map]
      exact hs.foldl_loadCell isCell_of_mem_fileCells
  | dataWrite buf len wellNum addr bigL =>
      unfold mapModbusWriteDataRegisters
      split
      · intro r
        rw [(dataWriteLoop_spec buf bigL wellNum.toNat addr.toNat s len.toNat).2.2.1]
        exact hs r
      · exact hs
  | map h =>
      cases h with
      | modbusWrite buf len wellNum addr bigL =>
          unfold mapModbusWriteRegisters modbusWriteLanded
          split
          · rename_i hok
            obtain ⟨hw8, hw, -⟩ := registerArgsOk_iff.1 hok
            exact modbusWriteLoop_cellKinds (by omega) (Int.toNat_le.2 hw8) hs _
          · exact hs
      | internalWrite buf len wellNum addr =>
          unfold zigbeeWriteRegisters
          split
          · exact writeCells_cellKinds hs
          · exact hs
      | mset v len wellNum addr =>
          exact (zigbeeWriteRegistersMset_sameMapping s v len wellNum addr).cellKinds hs
      | remap wellNum wellType =>
          exact Remapped.cellKinds ⟨wellNum, wellType, mapItemRemap_tables⟩ hs
      | reboot hinit => exact mapInit_cellKinds hinit
      | elsewhere hm => exact hm ▸ hs

/-- So they are known in every state of the map's life, as long as no store leaves its
table. -/
theorem cellKinds_of_reach (h : Reach (Booted env) (LifeStep env) s) : s.map.CellKinds := by
  refine h.invariant (P := fun s => s.map.CellKinds) ?_ fun _ _ _ hs hstep => hstep.cellKinds hs
  rintro s ⟨f1, f2, n, m, hinit, rfl⟩
  exact mapInit_cellKinds hinit

end Steps

/-! ### The copy agrees -/

section Agreement

variable {env : Platform} {s : Rtu}

/-- Devices that answer leave nothing of what the word held. -/
theorem mapMapFunRead_of_devices (hadc : env.adc.isSome) (hio : env.ioOpen = true)
    (cur cur' : UInt16) (w i : Nat) :
    mapMapFunRead env s cur w i = mapMapFunRead env s cur' w i := by
  obtain ⟨text, htext⟩ := Option.isSome_iff_exists.1 hadc
  have hbattery : getBatteryVoltage env cur = getBatteryVoltage env cur' := by
    rw [getBatteryVoltage, getBatteryVoltage, htext]
  have hdi : readDI env cur i = readDI env cur' i := by
    rw [readDI, readDI, if_pos hio, if_pos hio]
  rw [mapMapFunRead, mapMapFunRead, hbattery, hdi]

/-- One cell, whatever either word held. -/
theorem readCellBigL_eq {w i : Nat} (hkind : (s.map.ramXMapType (s.map.xBase w + i)).IsCell)
    (hadc : env.adc.isSome) (hio : env.ioOpen = true) (rc cur : UInt16) :
    readCellBigL env s rc w i = readCell env s cur w i := by
  unfold readCellBigL readCell
  cases htype : s.map.ramXMapType (s.map.xBase w + i) with
  | null | ram | flash1 | flash2 => rfl
  | sys =>
      dsimp only
      rw [mapMapFunRead_of_devices hadc hio rc cur]
      cases mapMapFunRead env s cur w i <;> rfl
  | record | ro | rw =>
      rw [htype] at hkind
      exact hkind.elim

/-- The loop, by induction on the cells that are left. -/
theorem readLoopBigL_eq (hadc : env.adc.isSome) (hio : env.ioOpen = true)
    (buf : Nat → UInt16) (bigL : Bool) (w n : Nat) : ∀ (i k : Nat) (rc : UInt16),
    (∀ j, k ≤ j → j < k + n → (s.map.ramXMapType (s.map.xBase w + (i + j))).IsCell) →
    readLoopBigL env s bigL w n (i + k) rc =
      (List.range' k n).map fun j => orderWord bigL (readCell env s (buf j) w (i + j)) := by
  induction n with
  | zero => exact fun _ _ _ _ => rfl
  | succ n ih =>
      intro i k rc hkinds
      rw [readLoopBigL, List.range'_succ, List.map_cons, Nat.add_assoc,
        ih i (k + 1) _ fun j hj hjn => hkinds j (by omega) (by omega),
        readCellBigL_eq (hkinds k (le_refl k) (by omega)) hadc hio rc (buf k)]
      rfl

theorem zigbeeReadRegistersBigL_eq {len wellNum addr : Int} (h : WindowKinds s.map len wellNum addr)
    (hadc : env.adc.isSome) (hio : env.ioOpen = true) (buf : Nat → UInt16) (bigL : Bool) :
    zigbeeReadRegistersBigL env s len wellNum addr bigL =
      (zigbeeReadRegisters env s buf len wellNum addr).map (List.map (orderWord bigL)) := by
  unfold zigbeeReadRegistersBigL zigbeeReadRegisters
  split
  · have hloop := readLoopBigL_eq hadc hio buf bigL wellNum.toNat len.toNat addr.toNat 0 0xFFFF
      fun j _ hj => h j (by omega)
    rw [Nat.add_zero] at hloop
    rw [hloop, Option.map_some, List.map_map, List.range_eq_range']
    rfl
  · rfl

/-- An unknown kind leaves the caller's word, so two buffers are read into different words. -/
theorem readCell_of_not_isCell {w i : Nat}
    (hkind : ¬ (s.map.ramXMapType (s.map.xBase w + i)).IsCell) (cur : UInt16) :
    readCell env s cur w i = cur := by
  unfold readCell
  cases htype : s.map.ramXMapType (s.map.xBase w + i) with
  | null | ram | flash1 | flash2 | sys =>
      rw [htype] at hkind
      exact absurd trivial hkind
  | record | ro | rw => rfl

/-- What a plain read returns does not depend on what the buffer held only where all kinds of
the window are known. -/
theorem windowKinds_of_read_const {len wellNum addr : Int}
    (hok : cellArgsOk s.map len wellNum addr = true)
    (h : zigbeeReadRegisters env s (fun _ => 0) len wellNum addr =
      zigbeeReadRegisters env s (fun _ => 1) len wellNum addr) :
    WindowKinds s.map len wellNum addr := by
  intro k hk
  by_contra hkind
  unfold zigbeeReadRegisters at h
  rw [if_pos hok, if_pos hok] at h
  have hwords := List.map_inj_left.1 (Option.some.inj h) k (List.mem_range.2 hk)
  rw [readCell_of_not_isCell hkind, readCell_of_not_isCell hkind] at hwords
  exact (show (0 : UInt16) ≠ 1 by decide) hwords

/-- **The copy reads what the original reads**, whatever the buffer held, and with `big_l` each
word with its bytes exchanged: exactly where the arguments are refused or all kinds of the
window are known. -/
theorem bigL_read_agrees_iff (hadc : env.adc.isSome) (hio : env.ioOpen = true)
    (len wellNum addr : Int) :
    (∀ buf, zigbeeReadRegistersBigL env s len wellNum addr false =
        zigbeeReadRegisters env s buf len wellNum addr ∧
      zigbeeReadRegistersBigL env s len wellNum addr true =
        (zigbeeReadRegisters env s buf len wellNum addr).map (List.map swapInt16)) ↔
      cellArgsOk s.map len wellNum addr = false ∨ WindowKinds s.map len wellNum addr := by
  constructor
  · intro h
    cases hok : cellArgsOk s.map len wellNum addr with
    | false => exact .inl rfl
    | true => exact .inr (windowKinds_of_read_const hok ((h _).1.symm.trans (h _).1))
  · rintro (hrefused | hkinds) buf
    · unfold zigbeeReadRegistersBigL zigbeeReadRegisters
      simp [hrefused]
    · refine ⟨?_, zigbeeReadRegistersBigL_eq hkinds hadc hio buf true⟩
      have hid : orderWord false = id := rfl
      rw [zigbeeReadRegistersBigL_eq hkinds hadc hio buf false, hid, List.map_id_fun,
        Option.map_id_fun, id]

end Agreement

/-- The platform of two types, with a battery and pins. -/
def answering : Platform := { twoTypes with adc := some "100 ".toList, ioOpen := true }

/-- The first cells after a boot: the well's type, the version and the clock among them. -/
theorem bootOne_bigL_agrees : cellArgsOk bootOne 12 1 0 = true ∧ ∀ buf,
    zigbeeReadRegistersBigL answering (.start bootOne) 12 1 0 false =
        zigbeeReadRegisters answering (.start bootOne) buf 12 1 0 ∧
      zigbeeReadRegistersBigL answering (.start bootOne) 12 1 0 true =
        (zigbeeReadRegisters answering (.start bootOne) buf 12 1 0).map (List.map swapInt16) :=
  ⟨rfl, (bigL_read_agrees_iff rfl rfl 12 1 0).2
    (.inr fun _ _ => mapInit_cellKinds bootOne_eq _)⟩

/-- The same unit, when something has marked its first cell with a kind that is none of a
cell. -/
def strayKind : Rtu :=
  .start { bootOne with ramXMapType := Function.update bootOne.ramXMapType 0 .ro }

/-- One such cell, read into a buffer that holds 0: the plain read leaves the 0, the copy
writes its own first word. -/
theorem not_bigL_read_agrees :
    ¬ ∀ (env : Platform) (s : Rtu) (buf : Nat → UInt16) (len wellNum addr : Int),
      env.adc.isSome → env.ioOpen = true →
      zigbeeReadRegistersBigL env s len wellNum addr false =
          zigbeeReadRegisters env s buf len wellNum addr ∧
        zigbeeReadRegistersBigL env s len wellNum addr true =
          (zigbeeReadRegisters env s buf len wellNum addr).map (List.map swapInt16) := by
  intro h
  have hread := (h answering strayKind (fun _ => 0) 1 1 0 rfl rfl).1
  exact absurd hread (by decide +kernel)

end RtuA118
