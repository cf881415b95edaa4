import RtuA118.Map.RemapBoot

/-!
# RtuA118.Map.RangeRows

What the rows of a mapping file mean, and what the loader makes of them.

A row means a list of cells (`Row.inBoth`): the `k`-th index of its range belongs to the `k`-th
register of its range, as far as both go. The loader's loop looks at the indexes alone. It passes
over a range of one index or one register, which is how a file writes cells without registers
(`0~0`); and where there are more indexes than registers it goes on behind the last register
(`Row.surplus`). Everything else it loads as it is meant: `rows_loaded`.
-/

namespace RtuA118

/-! ### What a row means -/

/-- The `k`-th cell of a range. -/
def rangeCell (x0 : UInt16) (y0 : Nat) (dV : UInt16) (flags : RowFlags) (k : Nat) : RowCell :=
  ⟨x0 + UInt16.ofNat k, UInt16.ofNat (y0 + k), dV, flags⟩

namespace Row

/-- The cells of a row, as far as both its ranges go; a single row is a range of one. -/
def inBoth : Row → List RowCell
  | .single x0 y0 dV flags => [rangeCell x0 (registerOfNumber y0) dV flags 0]
  | .range x0 x1 y0 y1 dV flags =>
    (List.range (min (x1.toNat + 1 - x0.toNat)
      (registerOfNumber y1 + 1 - registerOfNumber y0))).map
        (rangeCell x0 (registerOfNumber y0) dV flags)

/-- A range of one index or one register, or none. -/
def skipped : Row → Bool
  | .single .. => false
  | .range x0 x1 y0 y1 _ _ => decide (registerOfNumber y1 ≤ registerOfNumber y0 ∨ x1 ≤ x0)

/-- The cells a row means, a skipped one none. -/
def meant (r : Row) : List RowCell := if r.skipped then [] else r.inBoth

/-- The cells of the indexes that have no register left. -/
def surplus (r : Row) : List RowCell :=
  match r with
  | .single .. => []
  | .range x0 x1 y0 y1 dV flags =>
    if r.skipped then []
    else
      -- the loop counts the registers on behind their last
      let n := registerOfNumber y1 + 1 - registerOfNumber y0
      (List.range' n (x1.toNat + 1 - x0.toNat - n)).map
        (rangeCell x0 (registerOfNumber y0) dV flags)

end Row

/-! ### The tables of a well -/

/-- A cell: its word and its marks. -/
def MapT.cellAt (m : MapT) (a : Nat) : UInt16 × MapKind × MapKind × MapKind :=
  (m.ramX a, m.ramXMapType a, m.ramXMapRecord a, m.ramXMapRw a)

/-- A register: where it leads, and whether it leads anywhere. -/
def MapT.registerAt (m : MapT) (b : Nat) : UInt16 × MapKind := (m.ramY b, m.ramYMapType b)

/-- The map with these cells set in order, in the well whose blocks start at `xb` and `yb`. -/
def MapT.withCells (xb yb : Nat) (cs : List RowCell) (m : MapT) : MapT :=
  let t := m.tables.loadCells xb yb cs
  { m with
    ramX := Store.overlay m.ramX (cs.map fun c => (xb + c.x.toNat, c.dV))
    ramXMapType := t.ramXMapType
    ramXMapRecord := t.ramXMapRecord
    ramXMapRw := t.ramXMapRw
    ramY := t.ramY
    ramYMapType := t.ramYMapType }

/-- The rows of a mapping file. -/
def fileRows (env : Platform) (path : List Char) : List Row :=
  match env.readFile path with
  | none => []
  | some text => (scanWords text).filterMap parseRow

/-- A load that stays inside: what its rows set lies in the arrays, and the common file goes into
well 1, whose block holds the cells that are copied. -/
structure LoadInside (env : Platform) (xb yb : Nat) (flash1IsNew : Bool) (path : List Char)
    (isFlash1 : Bool) (m : MapT) : Prop where
  common : isFlash1 = true → xb = 0 ∧ yb = 0 ∧ flash1MaxLen ≤ m.xMax
  rows : ∀ c ∈ fileCells env path, c.Inside m.xMax xb yb flash1IsNew

/-- The tables `m'` of a well are those of `m` with the rows loaded as they are meant, where no
row has a surplus; and what no row names is as it was. -/
structure LoadedAsMeant (rows : List Row) (xb yb : Nat) (m m' : MapT) : Prop where
  cell : ∀ i < m.xMax, (∀ r ∈ rows, ∀ c ∈ r.surplus, c.x.toNat ≠ i) →
    m'.cellAt (xb + i) = (m.withCells xb yb (rows.flatMap Row.meant)).cellAt (xb + i)
  register : ∀ j < maxRegisterNum, (∀ r ∈ rows, ∀ c ∈ r.surplus, c.y.toNat ≠ j) →
    m'.registerAt (yb + j) = (m.withCells xb yb (rows.flatMap Row.meant)).registerAt (yb + j)
  other_cell : ∀ i < m.xMax, (∀ r ∈ rows, ∀ c ∈ r.meant ++ r.surplus, c.x.toNat ≠ i) →
    m'.cellAt (xb + i) = m.cellAt (xb + i)
  other_register : ∀ j < maxRegisterNum,
    (∀ r ∈ rows, ∀ c ∈ r.meant ++ r.surplus, c.y.toNat ≠ j) →
      m'.registerAt (yb + j) = m.registerAt (yb + j)

/-! ### The loop over a row -/

theorem rangeCells_eq_map (dV : UInt16) (flags : RowFlags) (x0 : UInt16) (y0 : Nat) :
    ∀ n a, rangeCells dV flags (x0 + UInt16.ofNat a) (UInt16.ofNat (y0 + a)) n =
      (List.range' a n).map (rangeCell x0 y0 dV flags) := by
  intro n
  induction n with
  | zero => exact fun a => rfl
  | succ n ih =>
      intro a
      have hx : x0 + UInt16.ofNat a + 1 = x0 + UInt16.ofNat (a + 1) := by
        simp [UInt16.add_assoc]
      have hy : UInt16.ofNat (y0 + a) + 1 = UInt16.ofNat (y0 + (a + 1)) := by
        simp [← Nat.add_assoc]
      rw [rangeCells, List.range'_succ, List.map_cons, ← ih, hx, hy]
      rfl

/-- The first of `n` turns up to `m`, and those behind. -/
theorem range'_eq_append (n m : Nat) :
    List.range' 0 n = List.range (min n m) ++ List.range' m (n - m) := by
  rcases Nat.le_total n m with h | h
  · rw [Nat.min_eq_left h, Nat.sub_eq_zero_of_le h, List.range_eq_range']
    simp
  · have happend := List.range'_append_1 (s := 0) (m := m) (n := n - m)
    rw [Nat.zero_add, Nat.add_sub_cancel' h] at happend
    rw [Nat.min_eq_right h, List.range_eq_range', happend]

theorem rangeCell_zero (x0 : UInt16) (y0 : Nat) (dV : UInt16) (flags : RowFlags) :
    rangeCell x0 y0 dV flags 0 = ⟨x0, UInt16.ofNat y0, dV, flags⟩ := by
  simp [rangeCell]

section Range

variable {x0 x1 y0 y1 dV : UInt16} {flags : RowFlags}

theorem Row.cells_single : (Row.single x0 y0 dV flags).cells =
    [⟨x0, UInt16.ofNat (registerOfNumber y0), dV, flags⟩] := by
  rw [Row.cells]

theorem Row.cells_of_skipped (h : registerOfNumber y1 ≤ registerOfNumber y0 ∨ x1 ≤ x0) :
    (Row.range x0 x1 y0 y1 dV flags).cells = [] := by
  rw [Row.cells, if_pos h]

theorem Row.cells_of_ne (h : ¬ (registerOfNumber y1 ≤ registerOfNumber y0 ∨ x1 ≤ x0))
    (hlast : x1 ≠ 65535) : (Row.range x0 x1 y0 y1 dV flags).cells =
      rangeCells dV flags x0 (UInt16.ofNat (registerOfNumber y0)) (x1.toNat - x0.toNat + 1) := by
  rw [Row.cells, if_neg h, if_neg hlast]

/-- A range that ends at the last index is an endless one. -/
theorem Row.ne_of_not_endless (h : ¬ (registerOfNumber y1 ≤ registerOfNumber y0 ∨ x1 ≤ x0))
    (hend : (Row.range x0 x1 y0 y1 dV flags).endless = false) : x1 ≠ 65535 := by
  obtain ⟨hy, hx⟩ := not_or.1 h
  intro hlast
  have hlt : x0 < 65535 := hlast ▸ UInt16.not_le.1 hx
  simp [endless, hlast, hlt, Nat.not_le.1 hy] at hend

end Range

/-- **The loop sets what the row means**, and its surplus behind it. -/
theorem Row.cells_eq {r : Row} (h : r.endless = false) : r.cells = r.meant ++ r.surplus := by
  cases r with
  | single x0 y0 dV flags =>
      simp only [cells_single, meant, skipped, inBoth, surplus, rangeCell_zero,
        Bool.false_eq_true, if_false, List.append_nil]
  | range x0 x1 y0 y1 dV flags =>
      by_cases hskip : registerOfNumber y1 ≤ registerOfNumber y0 ∨ x1 ≤ x0
      · simp [cells_of_skipped hskip, meant, surplus, skipped, hskip]
      · obtain ⟨-, hx⟩ := not_or.1 hskip
        have hlt : x0.toNat < x1.toNat := UInt16.lt_iff_toNat_lt.1 (UInt16.not_le.1 hx)
        have hloop := rangeCells_eq_map dV flags x0 (registerOfNumber y0)
          (x1.toNat + 1 - x0.toNat) 0
        have hcount : x1.toNat - x0.toNat + 1 = x1.toNat + 1 - x0.toNat := by omega
        have hzero : x0 + UInt16.ofNat 0 = x0 := by simp
        rw [hzero, Nat.add_zero] at hloop
        rw [cells_of_ne hskip (ne_of_not_endless hskip h), hcount, hloop,
          range'_eq_append _ (registerOfNumber y1 + 1 - registerOfNumber y0), List.map_append]
        simp only [meant, surplus, skipped, hskip, decide_false, Bool.false_eq_true, if_false,
          inBoth]

/-- The rows of a file that is loaded to its end. -/
theorem wordCells_eq {xb yb : Nat} {b1 b2 : Bool} {ws : List (List Char)} {m : MapT}
    (h : (loadWords xb yb b1 b2 ws m).1 = some 0) :
    wordCells ws = (ws.filterMap parseRow).flatMap fun r => r.meant ++ r.surplus := by
  induction ws generalizing m with
  | nil => rfl
  | cons w ws ih =>
      unfold loadWords at h
      unfold wordCells
      cases hrow : parseRow w with
      | none => simp [hrow] at h
      | some row =>
          rw [hrow] at h
          dsimp only at h
          cases hend : row.endless with
          | true => simp [hend] at h
          | false =>
              rw [hend, if_neg Bool.false_ne_true] at h
              simp [hrow, hend, ih h, Row.cells_eq hend]

/-! ### The tables -/

section Tables

variable {α : Type} {xb yb : Nat} {b1 b2 : Bool} {rows : List Row} {m : MapT}

/-- What the loop leaves at an address no surplus goes to is what the rows mean. -/
theorem lastWrite_meant {addr : RowCell → Nat} {val : RowCell → α} {a : Nat}
    (h : ∀ r ∈ rows, ∀ c ∈ r.surplus, addr c ≠ a) :
    Store.lastWrite ((rows.flatMap fun r => r.meant ++ r.surplus).map fun c => (addr c, val c)) a =
      Store.lastWrite ((rows.flatMap Row.meant).map fun c => (addr c, val c)) a := by
  induction rows with
  | nil => rfl
  | cons r rows ih =>
      have hsurplus : Store.lastWrite (r.surplus.map fun c => (addr c, val c)) a = none :=
        Store.lastWrite_eq_none fun w hw => by
          obtain ⟨c, hc, rfl⟩ := List.mem_map.1 hw
          exact h r List.mem_cons_self c hc
      simp only [List.flatMap_cons, List.map_append, Store.lastWrite_append, hsurplus,
        Option.none_or]
      rw [ih fun s hs => h s (List.mem_cons_of_mem _ hs)]

theorem overlay_meant {f : Nat → α} {addr : RowCell → Nat} {val : RowCell → α} {a : Nat}
    (h : ∀ r ∈ rows, ∀ c ∈ r.surplus, addr c ≠ a) :
    Store.overlay f
        ((rows.flatMap fun r => r.meant ++ r.surplus).map fun c => (addr c, val c)) a =
      Store.overlay f ((rows.flatMap Row.meant).map fun c => (addr c, val c)) a := by
  rw [Store.overlay_eq_getD, Store.overlay_eq_getD, lastWrite_meant h]

/-- An address no row names. -/
theorem overlay_other {f : Nat → α} {addr : RowCell → Nat} {val : RowCell → α} {a : Nat}
    (h : ∀ r ∈ rows, ∀ c ∈ r.meant ++ r.surplus, addr c ≠ a) :
    Store.overlay f
        ((rows.flatMap fun r => r.meant ++ r.surplus).map fun c => (addr c, val c)) a = f a := by
  refine Store.overlay_of_not_mem fun hmem => ?_
  obtain ⟨w, hw, rfl⟩ := List.mem_map.1 hmem
  obtain ⟨c, hc, rfl⟩ := List.mem_map.1 hw
  obtain ⟨r, hr, hcr⟩ := List.mem_flatMap.1 hc
  exact h r hr c hcr rfl

theorem ramX_foldl_loadCell (cs : List RowCell) (m : MapT) :
    (cs.foldl (loadCell xb yb b1 b2) m).ramX =
      Store.overlay m.ramX (cs.map fun c => (xb + c.x.toNat, c.dV)) := by
  induction cs generalizing m with
  | nil => rfl
  | cons c cs ih => exact ih _

/-- The loader's loop sets its cells in order. -/
theorem cellAt_foldl_loadCell (cs : List RowCell) (m : MapT) (a : Nat) :
    (cs.foldl (loadCell xb yb b1 b2) m).cellAt a = (m.withCells xb yb cs).cellAt a := by
  have ht : (cs.foldl (loadCell xb yb b1 b2) m).tables = m.tables.loadCells xb yb cs :=
    tables_foldl_loadCell
  have hrow := congrArg Tables.ramXMapType ht
  have hrecord := congrArg Tables.ramXMapRecord ht
  have hrw := congrArg Tables.ramXMapRw ht
  simp only [MapT.tables_ramXMapType, MapT.tables_ramXMapRecord, MapT.tables_ramXMapRw]
    at hrow hrecord hrw
  simp only [MapT.cellAt, MapT.withCells, ramX_foldl_loadCell, hrow, hrecord, hrw]

theorem registerAt_foldl_loadCell (cs : List RowCell) (m : MapT) (b : Nat) :
    (cs.foldl (loadCell xb yb b1 b2) m).registerAt b = (m.withCells xb yb cs).registerAt b := by
  have ht : (cs.foldl (loadCell xb yb b1 b2) m).tables = m.tables.loadCells xb yb cs :=
    tables_foldl_loadCell
  have hy := congrArg Tables.ramY ht
  have hmap := congrArg Tables.ramYMapType ht
  simp only [MapT.tables_ramY, MapT.tables_ramYMapType] at hy hmap
  simp only [MapT.registerAt, MapT.withCells, hy, hmap]

/-- The copies to the other wells leave the first well alone. -/
theorem cellAt_foldl_copyWell {i : Nat} : ∀ {wells : List Nat} {m : MapT}, (∀ k ∈ wells, 1 ≤ k) →
    i < m.xMax → (wells.foldl (copyWell b2) m).cellAt i = m.cellAt i := by
  intro wells
  induction wells with
  | nil => exact fun _ _ => rfl
  | cons k wells ih =>
      intro m hk hi
      have hlow : i < k * m.xMax :=
        Nat.lt_of_lt_of_le hi (Nat.le_mul_of_pos_left _ (hk k List.mem_cons_self))
      have hrest : ((wells.foldl (copyWell b2) (copyWell b2 m k)).cellAt i) = _ :=
        ih (fun l hl => hk l (List.mem_cons_of_mem _ hl)) hi
      rw [List.foldl_cons, hrest]
      simp only [MapT.cellAt, copyWell, Store.copy_of_lt hlow]

theorem registerAt_foldl_copyWell {j : Nat} : ∀ {wells : List Nat} {m : MapT},
    (∀ k ∈ wells, 1 ≤ k) → j < maxRegisterNum →
      (wells.foldl (copyWell b2) m).registerAt j = m.registerAt j := by
  intro wells
  induction wells with
  | nil => exact fun _ _ => rfl
  | cons k wells ih =>
      intro m hk hj
      have hlow : j < k * maxRegisterNum :=
        Nat.lt_of_lt_of_le hj (Nat.le_mul_of_pos_left _ (hk k List.mem_cons_self))
      rw [List.foldl_cons, ih (fun l hl => hk l (List.mem_cons_of_mem _ hl)) hj]
      simp only [MapT.registerAt, copyWell, Store.copy_of_lt hlow]

end Tables

theorem LoadInside.well {env : Platform} {xb yb : Nat} {b1 isFlash1 : Bool} {path : List Char}
    {m : MapT} (h : LoadInside env xb yb b1 path isFlash1 m) (hf : isFlash1 = true) :
    xb = 0 ∧ yb = 0 := ⟨(h.common hf).1, (h.common hf).2.1⟩

section Load

variable {env : Platform} {xb yb : Nat} {b1 b2 isFlash1 : Bool} {path : List Char} {m : MapT}

/-- The cells of a file that is loaded to its end. -/
theorem fileCells_eq (h : (ramMapFlash1ValueInit env xb yb b1 b2 path isFlash1 m).1 = some 0) :
    fileCells env path = (fileRows env path).flatMap fun r => r.meant ++ r.surplus := by
  cases hread : env.readFile path with
  | none => simp [ramMapFlash1ValueInit, hread] at h
  | some text =>
      rw [ramMapFlash1ValueInit_of_readFile hread] at h
      simp only [fileCells, fileRows, hread]
      exact wordCells_eq h

/-- The cells and registers of a well after a file loaded to its end into it. -/
theorem cellAt_ramMapFlash1ValueInit
    (h : (ramMapFlash1ValueInit env xb yb b1 b2 path isFlash1 m).1 = some 0)
    (hwell : isFlash1 = true → xb = 0 ∧ yb = 0) {i : Nat} (hi : i < m.xMax) :
    (ramMapFlash1ValueInit env xb yb b1 b2 path isFlash1 m).2.cellAt (xb + i) =
      (m.withCells xb yb ((fileRows env path).flatMap fun r => r.meant ++ r.surplus)).cellAt
        (xb + i) := by
  have hload : (ramMapFlash1ValueInit env xb yb b1 b2 path isFlash1 m).2 = _ :=
    ramMapFlash1ValueInit_ok (Prod.ext h rfl)
  have hloop : ((fileCells env path).foldl (loadCell xb yb b1 b2) m).cellAt (xb + i) = _ :=
    cellAt_foldl_loadCell _ _ _
  rw [hload, ← fileCells_eq h, ← hloop]
  cases isFlash1 with
  | false => rfl
  | true =>
      -- the common file is loaded into well 1, which the copies leave
      obtain ⟨rfl, -⟩ := hwell rfl
      rw [if_pos rfl, Nat.zero_add]
      exact cellAt_foldl_copyWell (fun k hk => (List.mem_range'_1.1 hk).1)
        (by rwa [foldl_loadCell_xMax])

theorem registerAt_ramMapFlash1ValueInit
    (h : (ramMapFlash1ValueInit env xb yb b1 b2 path isFlash1 m).1 = some 0)
    (hwell : isFlash1 = true → xb = 0 ∧ yb = 0) {j : Nat} (hj : j < maxRegisterNum) :
    (ramMapFlash1ValueInit env xb yb b1 b2 path isFlash1 m).2.registerAt (yb + j) =
      (m.withCells xb yb ((fileRows env path).flatMap fun r => r.meant ++ r.surplus)).registerAt
        (yb + j) := by
  have hload : (ramMapFlash1ValueInit env xb yb b1 b2 path isFlash1 m).2 = _ :=
    ramMapFlash1ValueInit_ok (Prod.ext h rfl)
  have hloop : ((fileCells env path).foldl (loadCell xb yb b1 b2) m).registerAt (yb + j) = _ :=
    registerAt_foldl_loadCell _ _ _
  rw [hload, ← fileCells_eq h, ← hloop]
  cases isFlash1 with
  | false => rfl
  | true =>
      obtain ⟨-, rfl⟩ := hwell rfl
      rw [if_pos rfl, Nat.zero_add]
      exact registerAt_foldl_copyWell (fun k hk => (List.mem_range'_1.1 hk).1) hj

end Load

/-- **What a load leaves is what the rows mean**, up to the surplus of a row. -/
theorem rows_loaded (env : Platform) (xb yb : Nat) (b1 b2 : Bool) (path : List Char)
    (isFlash1 : Bool) (m : MapT) (hinside : LoadInside env xb yb b1 path isFlash1 m)
    (h : (ramMapFlash1ValueInit env xb yb b1 b2 path isFlash1 m).1 = some 0) :
    LoadedAsMeant (fileRows env path) xb yb m
      (ramMapFlash1ValueInit env xb yb b1 b2 path isFlash1 m).2 where
  cell i hi hs := by
    have hkey : ∀ r ∈ fileRows env path, ∀ c ∈ r.surplus, xb + c.x.toNat ≠ xb + i :=
      fun r hr c hc heq => hs r hr c hc (Nat.add_left_cancel heq)
    rw [cellAt_ramMapFlash1ValueInit h hinside.well hi]
    simp only [MapT.cellAt, MapT.withCells, Tables.loadCells, Tables.cellWrites,
      overlay_meant hkey]
  register j hj hs := by
    have hkey : ∀ r ∈ fileRows env path, ∀ c ∈ r.surplus, yb + c.y.toNat ≠ yb + j :=
      fun r hr c hc heq => hs r hr c hc (Nat.add_left_cancel heq)
    rw [registerAt_ramMapFlash1ValueInit h hinside.well hj]
    simp only [MapT.registerAt, MapT.withCells, Tables.loadCells, Tables.regWrites,
      overlay_meant hkey]
  other_cell i hi hs := by
    have hkey : ∀ r ∈ fileRows env path, ∀ c ∈ r.meant ++ r.surplus,
        xb + c.x.toNat ≠ xb + i :=
      fun r hr c hc heq => hs r hr c hc (Nat.add_left_cancel heq)
    rw [cellAt_ramMapFlash1ValueInit h hinside.well hi]
    simp only [MapT.cellAt, MapT.withCells, Tables.loadCells, Tables.cellWrites,
      overlay_other hkey, MapT.tables]
  other_register j hj hs := by
    have hkey : ∀ r ∈ fileRows env path, ∀ c ∈ r.meant ++ r.surplus,
        yb + c.y.toNat ≠ yb + j :=
      fun r hr c hc heq => hs r hr c hc (Nat.add_left_cancel heq)
    rw [registerAt_ramMapFlash1ValueInit h hinside.well hj]
    simp only [MapT.registerAt, MapT.withCells, Tables.loadCells, Tables.regWrites,
      overlay_other hkey, MapT.tables]

/-- A file with a range of cells that have no register, and one of five cells for four of them. -/
def rowsUnit : Platform := .bare fun path =>
  if path = pathMap1 then some "19~29,0~0,-1,WR,SYS\n3~7,40002~40005,6,RO,FLASH1".toList else none

/-- The map it is loaded into. -/
def rowsStart : MapT := emptyMap 330 (fun _ => 0) fun _ => 0

theorem rowsUnit_inside : LoadInside rowsUnit 0 0 true pathMap1 true rowsStart where
  common := fun _ => by decide
  rows := fun c hc => ⟨(by decide : ∀ c ∈ fileCells rowsUnit pathMap1, 0 + c.x.toNat < 2640) c hc,
    (by decide : ∀ c ∈ fileCells rowsUnit pathMap1, 0 + c.y.toNat < 80000) c hc,
    fun _ _ => (by decide : ∀ c ∈ fileCells rowsUnit pathMap1, c.x.toNat < 300) c hc⟩

theorem rowsUnit_loaded : LoadedAsMeant (fileRows rowsUnit pathMap1) 0 0 rowsStart
    (ramMapFlash1ValueInit rowsUnit 0 0 true true pathMap1 true rowsStart).2 :=
  rows_loaded rowsUnit 0 0 true true pathMap1 true rowsStart rowsUnit_inside (by decide)

/-- A range of cells without registers is not loaded. -/
theorem not_loaded_inBoth : ¬ ∀ (env : Platform) (xb yb : Nat) (b1 b2 : Bool) (path : List Char)
    (isFlash1 : Bool) (m : MapT), (isFlash1 = true → xb = 0 ∧ yb = 0) →
    (ramMapFlash1ValueInit env xb yb b1 b2 path isFlash1 m).1 = some 0 →
    (∀ i < m.xMax, (ramMapFlash1ValueInit env xb yb b1 b2 path isFlash1 m).2.cellAt (xb + i) =
      (m.withCells xb yb ((fileRows env path).flatMap Row.inBoth)).cellAt (xb + i)) ∧
    ∀ j < maxRegisterNum,
      (ramMapFlash1ValueInit env xb yb b1 b2 path isFlash1 m).2.registerAt (yb + j) =
        (m.withCells xb yb ((fileRows env path).flatMap Row.inBoth)).registerAt (yb + j) := by
  intro h
  have hcell := (h rowsUnit 0 0 true true pathMap1 false rowsStart nofun (by decide)).1 19
    (by decide)
  -- no register is named, so the cell keeps its mark
  exact absurd (congrArg (fun c => c.2.1) hcell) (by decide)

end RtuA118
