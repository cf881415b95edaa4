import RtuA118.Map.Modbus

/-!
# RtuA118.Map.Tables

The **mapping tables** alone: where each register leads, and what kind of cell is
there. This is the map without its values, and it changes in two ways only: an
unmapped register's word is its own content, and a change of well type overlays
the new type's rows (`Tables.loadCells`).

The loader refines this view: `loadWords_tables`, and for the two callers
`mapItemRemap_tables` here and the boot in `RtuA118.Map.RemapBoot`.
-/

namespace RtuA118

/-- The part of the map that is not values. -/
structure Tables where
  xMax : Nat
  ramXMapType : Nat → MapKind
  ramXMapRecord : Nat → MapKind
  ramXMapRw : Nat → MapKind
  ramY : Nat → UInt16
  ramYMapType : Nat → MapKind

/-- The mapping tables of a map. -/
def MapT.tables (m : MapT) : Tables where
  xMax := m.xMax
  ramXMapType := m.ramXMapType
  ramXMapRecord := m.ramXMapRecord
  ramXMapRw := m.ramXMapRw
  ramY := m.ramY
  ramYMapType := m.ramYMapType

namespace MapT

@[simp] theorem tables_xMax (m : MapT) : m.tables.xMax = m.xMax := rfl

@[simp] theorem tables_ramXMapType (m : MapT) : m.tables.ramXMapType = m.ramXMapType := rfl

@[simp] theorem tables_ramXMapRecord (m : MapT) : m.tables.ramXMapRecord = m.ramXMapRecord := rfl

@[simp] theorem tables_ramXMapRw (m : MapT) : m.tables.ramXMapRw = m.ramXMapRw := rfl

@[simp] theorem tables_ramY (m : MapT) : m.tables.ramY = m.ramY := rfl

@[simp] theorem tables_ramYMapType (m : MapT) : m.tables.ramYMapType = m.ramYMapType := rfl

@[simp] theorem tables_setRamX (m : MapT) (w i : Nat) (v : UInt16) :
    (m.setRamX w i v).tables = m.tables := rfl

@[simp] theorem tables_setFlash1 (m : MapT) (i : Nat) (v : UInt16) :
    (m.setFlash1 i v).tables = m.tables := rfl

@[simp] theorem tables_setFlash2 (m : MapT) (w i : Nat) (v : UInt16) :
    (m.setFlash2 w i v).tables = m.tables := rfl

end MapT

/-! ### Rows over tables -/

namespace Tables

/-- Start of well `w`'s block in the cell tables. -/
def xBase (t : Tables) (w : Nat) : Nat := t.xMax * (w - 1)

/-- The register array with one word changed. -/
def setRamY (t : Tables) (w i : Nat) (v : UInt16) : Tables :=
  { t with ramY := Function.update t.ramY (yBase w + i) v }

/-- The rows' writes to a cell table, as addresses with marks. -/
def cellWrites (xb : Nat) (mark : RowFlags → MapKind) (cs : List RowCell) : List (Nat × MapKind) :=
  cs.map fun c => (xb + c.x.toNat, mark c.flags)

/-- The rows' writes to a register array. -/
def regWrites {α : Type} (yb : Nat) (mark : RowCell → α) (cs : List RowCell) : List (Nat × α) :=
  cs.map fun c => (yb + c.y.toNat, mark c)

/-- The tables with the cells of some rows overlaid. -/
def loadCells (xb yb : Nat) (cs : List RowCell) (t : Tables) : Tables where
  xMax := t.xMax
  ramXMapType := Store.overlay t.ramXMapType (cellWrites xb RowFlags.mapType cs)
  ramXMapRecord := Store.overlay t.ramXMapRecord (cellWrites xb RowFlags.mapRecord cs)
  ramXMapRw := Store.overlay t.ramXMapRw (cellWrites xb RowFlags.mapRw cs)
  ramY := Store.overlay t.ramY (regWrites yb RowCell.x cs)
  ramYMapType := Store.overlay t.ramYMapType (regWrites yb (fun _ => .ram) cs)

@[simp] theorem xBase_tables (m : MapT) (w : Nat) : m.tables.xBase w = m.xBase w := rfl

@[simp] theorem loadCells_nil (xb yb : Nat) (t : Tables) : t.loadCells xb yb [] = t := rfl

theorem loadCells_append (xb yb : Nat) (cs ds : List RowCell) (t : Tables) :
    t.loadCells xb yb (cs ++ ds) = (t.loadCells xb yb cs).loadCells xb yb ds := by
  unfold loadCells cellWrites regWrites
  simp only [List.map_append, Store.overlay_append]

end Tables

/-! ### The loader refines the overlay -/

theorem tables_foldl_loadCell {xb yb : Nat} {b1 b2 : Bool} {cs : List RowCell} {m : MapT} :
    (cs.foldl (loadCell xb yb b1 b2) m).tables = m.tables.loadCells xb yb cs := by
  induction cs generalizing m with
  | nil => rfl
  | cons c cs ih =>
      rw [List.foldl_cons, ih]
      rfl

/-- The cells the loader sets before it ends, at the end of the file or at a row
it cannot scan. -/
def wordCells : List (List Char) → List RowCell
  | [] => []
  | w :: ws =>
    match parseRow w with
    | none => []
    | some row => row.cells ++ if row.endless then [] else wordCells ws

theorem loadWords_snd {xb yb : Nat} {b1 b2 : Bool} {ws : List (List Char)} {m : MapT} :
    (loadWords xb yb b1 b2 ws m).2 = (wordCells ws).foldl (loadCell xb yb b1 b2) m := by
  induction ws generalizing m with
  | nil => rfl
  | cons w ws ih =>
      unfold loadWords wordCells
      cases parseRow w with
      | none => rfl
      | some row =>
          dsimp only
          cases row.endless with
          | true => simp
          | false => simp [ih]

/-- How a load ends does not depend on the map it works on. -/
theorem loadWords_fst {xb yb xb' yb' : Nat} {b1 b2 b1' b2' : Bool} {ws : List (List Char)}
    {m m' : MapT} : (loadWords xb yb b1 b2 ws m).1 = (loadWords xb' yb' b1' b2' ws m').1 := by
  induction ws generalizing m m' with
  | nil => rfl
  | cons w ws ih =>
      unfold loadWords
      cases parseRow w with
      | none => rfl
      | some row =>
          dsimp only
          cases row.endless with
          | true => rfl
          | false => exact ih

/-- What a load leaves at the end of the file: the copies, where it is the common one. -/
def loadedWords (b2 isFlash1 : Bool) (m : MapT) : MapT :=
  if isFlash1 then (List.range' 1 (maxWellNum - 1)).foldl (copyWell b2) m else m

/-- A load ends as its words do, and then copies if it has come to their end. -/
theorem ramMapFlash1ValueInit_of_readFile {env : Platform} {xb yb : Nat} {b1 b2 isFlash1 : Bool}
    {path text : List Char} {m : MapT} (h : env.readFile path = some text) :
    ramMapFlash1ValueInit env xb yb b1 b2 path isFlash1 m =
      ((loadWords xb yb b1 b2 (scanWords text) m).1,
        if (loadWords xb yb b1 b2 (scanWords text) m).1 = some 0 then
          loadedWords b2 isFlash1 (loadWords xb yb b1 b2 (scanWords text) m).2
        else (loadWords xb yb b1 b2 (scanWords text) m).2) := by
  unfold ramMapFlash1ValueInit
  simp only [h]
  split
  · rename_i m' hload
    rw [hload]
    cases isFlash1 <;> rfl
  · rename_i hne
    rw [if_neg fun h0 => hne _ (Prod.ext h0 rfl)]

/-- The cells of a mapping file; none where it cannot be opened. -/
def fileCells (env : Platform) (path : List Char) : List RowCell :=
  match env.readFile path with
  | none => []
  | some text => wordCells (scanWords text)

/-- One file into one well, without the copies to the others. -/
theorem ramMapFlash1ValueInit_snd {env : Platform} {xb yb : Nat} {b1 b2 : Bool} {path : List Char}
    {m : MapT} :
    (ramMapFlash1ValueInit env xb yb b1 b2 path false m).2 =
      (fileCells env path).foldl (loadCell xb yb b1 b2) m := by
  unfold fileCells
  cases hread : env.readFile path with
  | none => simp [ramMapFlash1ValueInit, hread]
  | some text =>
      rw [ramMapFlash1ValueInit_of_readFile hread]
      dsimp only
      rw [← loadWords_snd]
      split <;> rfl

/-! ### A change of well type over tables -/

namespace Tables

/-- The rows a change of well `w` to type `t` overlays: none where it is refused. -/
def remapCells (env : Platform) (w : Nat) (t : UInt16) : List RowCell :=
  if w < 1 ∨ w - 1 > maxWellNum then []
  else
    match getMap00Path env t with
    | none => []
    | some path => fileCells env path

/-- The tables after a change of well type. -/
def remap (env : Platform) (w : Nat) (t : UInt16) (tb : Tables) : Tables :=
  tb.loadCells (tb.xBase w) (yBase w) (remapCells env w t)

end Tables

/-- A change of type is refused, or it stores the type and loads the file listed for it,
after which there may be an `msync`. -/
theorem mapItemRemap_cases (env : Platform) (w : Nat) (t : UInt16) (s : Rtu) :
    (Tables.remapCells env w t = [] ∧ (mapItemRemap env w t s).2 = s) ∨
    ∃ path, getMap00Path env t = some path ∧ Tables.remapCells env w t = fileCells env path ∧
      ∃ s', s' = (s.onMap fun m => (fileCells env path).foldl
          (loadCell (m.xBase w) (yBase w) false true) (m.setFlash2 w 0 t)) ∧
        ((mapItemRemap env w t s).2 = s' ∨ (mapItemRemap env w t s).2 = (s'.msync env).2) := by
  unfold mapItemRemap Tables.remapCells
  by_cases hw : w < 1 ∨ w - 1 > maxWellNum
  · rw [if_pos hw, if_pos hw]
    exact .inl ⟨rfl, rfl⟩
  rw [if_neg hw, if_neg hw]
  cases getMap00Path env t with
  | none => exact .inl ⟨rfl, rfl⟩
  | some path =>
      have hload : (ramMapFlash1ValueInit env ((s.onMap (·.setFlash2 w 0 t)).map.xBase w)
          (yBase w) false true path false (s.onMap (·.setFlash2 w 0 t)).map).2 = _ :=
        ramMapFlash1ValueInit_snd
      refine .inr ⟨path, rfl, rfl, _, rfl, ?_⟩
      dsimp only
      split
      · rename_i m h
        obtain rfl : m = _ := (congrArg Prod.snd h).symm.trans hload
        refine .inr ?_
        split <;>
          · rename_i s' hm
            exact (congrArg Prod.snd hm).symm
      · rename_i rc m _ h
        obtain rfl : m = _ := (congrArg Prod.snd h).symm.trans hload
        exact .inl rfl

/-- `map_item_remap` overlays the type's rows, whether or not it succeeds. -/
theorem mapItemRemap_tables {env : Platform} {w : Nat} {t : UInt16} {s : Rtu} :
    (mapItemRemap env w t s).2.map.tables = s.map.tables.remap env w t := by
  unfold Tables.remap
  obtain ⟨hcells, hs⟩ | ⟨path, -, hcells, s', rfl, hs⟩ := mapItemRemap_cases env w t s
  · rw [hs, hcells, Tables.loadCells_nil]
  · rw [hcells]
    rcases hs with hs | hs <;> rw [hs]
    · exact tables_foldl_loadCell
    · exact tables_foldl_loadCell

/-! ### The kinds that rows bring -/

/-- A kind of the cell table. -/
def MapKind.IsCell : MapKind → Prop
  | .null | .ram | .flash1 | .flash2 | .sys => True
  | .record | .ro | .rw => False

instance : DecidablePred MapKind.IsCell
  | .null | .ram | .flash1 | .flash2 | .sys => .isTrue trivial
  | .record | .ro | .rw => .isFalse id

section Kinds

variable {env : Platform}

theorem mem_wordCells {c : RowCell} : ∀ {ws : List (List Char)}, c ∈ wordCells ws →
    ∃ w ∈ ws, ∃ row, parseRow w = some row ∧ c ∈ row.cells := by
  intro ws
  induction ws with
  | nil => intro h; cases h
  | cons w ws ih =>
      intro h
      unfold wordCells at h
      cases hp : parseRow w with
      | none =>
          rw [hp] at h
          cases h
      | some row =>
          rw [hp] at h
          rcases List.mem_append.1 h with hrow | hrest
          · exact ⟨w, List.mem_cons_self, row, hp, hrow⟩
          · split at hrest
            · cases hrest
            · obtain ⟨w', hw', row', hp', hc⟩ := ih hrest
              exact ⟨w', List.mem_cons_of_mem _ hw', row', hp', hc⟩

theorem rowFlags_isCell (w : List Char) : (rowFlags w).mapType.IsCell := by
  rcases rowFlags_mapType w with h | h | h | h <;> rw [h] <;> trivial

theorem flags_of_mem_rangeCells {c : RowCell} {dV : UInt16} {flags : RowFlags} : ∀ {n : Nat}
    {i j : UInt16}, c ∈ rangeCells dV flags i j n → c.flags = flags := by
  intro n
  induction n with
  | zero => exact nofun
  | succ n ih =>
      intro i j h
      rcases List.mem_cons.1 h with rfl | h
      · rfl
      · exact ih h

/-- The cells of a row have the flags that its text says. -/
theorem flags_of_parseRow {w : List Char} {row : Row} (hrow : parseRow w = some row) :
    ∀ c ∈ row.cells, c.flags = rowFlags w := by
  intro c hc
  unfold parseRow at hrow
  split at hrow <;>
    simp only [Option.bind_eq_bind, Option.bind_eq_some_iff, Option.pure_def, Prod.exists] at hrow
  · obtain ⟨x0, -, -, -, -, x1, -, -, -, -, y0, -, -, -, -, y1, -, -, -, -, dV, -, -, hrow⟩ := hrow
    obtain rfl := Option.some.inj hrow
    dsimp only [Row.cells] at hc
    split at hc
    · cases hc
    · exact flags_of_mem_rangeCells hc
  · obtain ⟨x0, -, -, -, -, y0, -, -, -, -, dV, -, -, hrow⟩ := hrow
    obtain rfl := Option.some.inj hrow
    obtain rfl := List.mem_singleton.1 hc
    rfl

theorem isCell_of_mem_fileCells {path : List Char} : ∀ c ∈ fileCells env path,
    c.flags.mapType.IsCell := by
  intro c hc
  unfold fileCells at hc
  split at hc
  · cases hc
  · obtain ⟨w, -, row, hrow, hcell⟩ := mem_wordCells hc
    rw [flags_of_parseRow hrow c hcell]
    exact rowFlags_isCell w

theorem isCell_of_mem_remapCells {w : Nat} {t : UInt16} : ∀ c ∈ Tables.remapCells env w t,
    c.flags.mapType.IsCell := by
  intro c hc
  unfold Tables.remapCells at hc
  split at hc
  · cases hc
  · split at hc
    · cases hc
    · exact isCell_of_mem_fileCells c hc

end Kinds

/-! ### One register over tables -/

namespace Tables

/-- The cell a mapped register leads to. -/
def cellOf (tb : Tables) (w i : Nat) : Nat := (tb.ramY (yBase w + i)).toNat

@[simp] theorem cellOf_tables (m : MapT) (w i : Nat) : m.tables.cellOf w i = m.cellOf w i := rfl

/-- A write to the register is refused: it leads to a cell that is not read-write. -/
def readOnly (tb : Tables) (w i : Nat) : Prop :=
  tb.ramYMapType (yBase w + i) = .ram ∧ tb.ramXMapRw (tb.xBase w + tb.cellOf w i) ≠ .rw

/-- A write to the register reaches a word: its own, or that of a read-write cell
inside the block. -/
def takes (tb : Tables) (w i : Nat) : Prop :=
  tb.ramYMapType (yBase w + i) = .null ∨
    tb.ramYMapType (yBase w + i) = .ram ∧ tb.ramXMapRw (tb.xBase w + tb.cellOf w i) = .rw ∧
      tb.cellOf w i < tb.xMax

instance (tb : Tables) (w i : Nat) : Decidable (tb.readOnly w i) := by
  unfold readOnly
  infer_instance

instance (tb : Tables) (w i : Nat) : Decidable (tb.takes w i) := by
  unfold takes
  infer_instance

/-- The tables after word `v` is written to register `i`. -/
def afterWrite (env : Platform) (w i : Nat) (v : UInt16) (tb : Tables) : Tables :=
  if tb.ramYMapType (yBase w + i) = .null then tb.setRamY w i v
  else if tb.takes w i ∧ tb.cellOf w i = mapChangeWellType
      ∧ tb.ramXMapType (tb.xBase w + mapChangeWellType) = .sys then tb.remap env w v
  else tb

end Tables

/-! ### The write path over tables -/

theorem storeFun_tables {env : Platform} {wf w i : Nat} {v : UInt16} {s : Rtu} :
    (storeFun env wf w i v s).map.tables = s.map.tables := rfl

/-- Only the well-type cell changes the tables. -/
theorem mapMapFunWrite_tables {env : Platform} {v v' : UInt16} {w i : Nat} {s s' : Rtu}
    (h : mapMapFunWrite env v w i s = some (v', s')) :
    s'.map.tables =
      if i = mapChangeWellType then s.map.tables.remap env w v else s.map.tables := by
  by_cases h0 : i = mapChangeWellType
  · unfold mapMapFunWrite at h
    rw [if_pos h0] at h
    rw [if_pos h0]
    obtain ⟨rfl, rfl⟩ := Option.some.inj h
    exact mapItemRemap_tables
  · rw [if_neg h0]
    obtain ⟨-, -, rfl⟩ | ⟨-, -, rfl⟩ | ⟨-, -, rfl⟩ | ⟨-, -, rfl⟩ | ⟨-, -, rfl⟩ :=
      mapMapFunWrite_cases h h0
    · rfl
    · rw [rtuResetFlash1_map]
    · rfl
    · rw [storeFun_tables, gpioSetDo_map]
    · rfl

theorem mapMapFunWrite_change {env : Platform} {v : UInt16} {w : Nat} {s : Rtu} :
    mapMapFunWrite env v w mapChangeWellType s = some (v, (mapItemRemap env w v s).2) := by
  unfold mapMapFunWrite
  rw [if_pos rfl]

/-- What storing into one cell does to the tables. -/
theorem writeCell_tables {env : Platform} {w i : Nat} {v : UInt16} {s : Rtu} :
    (writeCell env w i v s).2.map.tables =
      if i = mapChangeWellType ∧ s.map.ramXMapType (s.map.xBase w + i) = .sys then
        s.map.tables.remap env w v
      else s.map.tables := by
  cases h : s.map.ramXMapType (s.map.xBase w + i) with
  | sys =>
      simp only [writeCell, h]
      cases hf : mapMapFunWrite env v w i s with
      | none =>
          have h0 : i ≠ mapChangeWellType := by
            rintro rfl
            rw [mapMapFunWrite_change] at hf
            cases hf
          rw [if_neg (fun hc => h0 hc.1)]
          rfl
      | some r =>
          obtain ⟨v', s'⟩ := r
          have ht := mapMapFunWrite_tables hf
          dsimp only
          simp only [Rtu.onMap_map, MapT.tables_setRamX, ht, and_true]
  | flash1 =>
      rw [if_neg (by simp), writeCell_flash1 h]
      dsimp only [Rtu.onMap_map]
      split <;> rfl
  | flash2 =>
      rw [if_neg (by simp), writeCell_flash2 h]
      dsimp only [Rtu.onMap_map]
      split <;> rfl
  | _ => simp [writeCell, h]

end RtuA118
