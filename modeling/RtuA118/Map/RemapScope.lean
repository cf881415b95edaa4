import RtuA118.Map.Tables

/-!
# RtuA118.Map.RemapScope

What `map_item_remap` has changed when it returns.

The type goes into the well's second flash before the type's file is opened, the rows
go into the map one by one until one does not scan, and the `msync` comes last. A
change that fails on the way is therefore seen in the map, unless every word stored so
far was there already. A change that succeeds has tested neither the indices of the
rows nor, by one, the well number.

`foldl_loadCell_eq` writes the loader as one sequence of writes for each array, so that
"keeps an array at these addresses" is `Store.overlay_eqOn_iff` for each of them.
-/

namespace RtuA118

/-! ### How the load of a file ends -/

/-- A row the loader gets past. -/
def RowScans (w : List Char) : Prop := ∃ row, parseRow w = some row ∧ row.endless = false

/-- Every row of the file scans. -/
def FileScans (env : Platform) (path : List Char) : Prop :=
  ∃ text, env.readFile path = some text ∧ ∀ w ∈ scanWords text, RowScans w

/-- The file cannot be opened, or the loader comes to a row that does not scan. -/
def FileFails (env : Platform) (path : List Char) : Prop :=
  ∀ text, env.readFile path = some text →
    ∃ us w vs, scanWords text = us ++ w :: vs ∧ (∀ u ∈ us, RowScans u) ∧ parseRow w = none

section Ends

variable {env : Platform} {xb yb : Nat} {b1 b2 : Bool} {m : MapT}

theorem loadWords_of_rowScans {us ws : List (List Char)} (h : ∀ u ∈ us, RowScans u) :
    (loadWords xb yb b1 b2 (us ++ ws) m).1 = (loadWords xb yb b1 b2 ws m).1 := by
  induction us generalizing m with
  | nil => rfl
  | cons u us ih =>
      obtain ⟨⟨row, hrow, hend⟩, hus⟩ := List.forall_mem_cons.mp h
      rw [List.cons_append, ← ih hus]
      conv_lhs => unfold loadWords
      simp only [hrow, hend]
      exact loadWords_fst

/-- The load ends well after its last row, badly at the first that does not scan, and
never in a range without an end. -/
theorem loadWords_ends (xb yb : Nat) (b1 b2 : Bool) (m : MapT) (ws : List (List Char)) :
    (∀ w ∈ ws, RowScans w) ∧ (loadWords xb yb b1 b2 ws m).1 = some 0 ∨
    (∃ us w vs, ws = us ++ w :: vs ∧ (∀ u ∈ us, RowScans u) ∧ parseRow w = none) ∧
      (loadWords xb yb b1 b2 ws m).1 = some (-1) ∨
    (loadWords xb yb b1 b2 ws m).1 = none := by
  induction ws generalizing m with
  | nil => exact .inl ⟨by simp, rfl⟩
  | cons w ws ih =>
      cases hrow : parseRow w with
      | none =>
          refine .inr (.inl ⟨⟨[], w, ws, rfl, by simp, hrow⟩, ?_⟩)
          unfold loadWords
          rw [hrow]
      | some row =>
          cases hend : row.endless with
          | true =>
              refine .inr (.inr ?_)
              unfold loadWords
              simp [hrow, hend]
          | false =>
              have hw : RowScans w := ⟨row, hrow, hend⟩
              have hstep : (loadWords xb yb b1 b2 ([w] ++ ws) m).1 = _ :=
                loadWords_of_rowScans (by simpa using hw)
              rw [List.singleton_append] at hstep
              rw [hstep]
              obtain ⟨hws, h⟩ | ⟨⟨us, u, vs, rfl, hus, hu⟩, h⟩ | h := ih m
              · exact .inl ⟨List.forall_mem_cons.mpr ⟨hw, hws⟩, h⟩
              · exact .inr (.inl ⟨⟨w :: us, u, vs, rfl,
                  List.forall_mem_cons.mpr ⟨hw, hus⟩, hu⟩, h⟩)
              · exact .inr (.inr h)

theorem loadWords_eq_zero_iff {ws : List (List Char)} :
    (loadWords xb yb b1 b2 ws m).1 = some 0 ↔ ∀ w ∈ ws, RowScans w := by
  constructor
  · intro h
    obtain ⟨hws, -⟩ | ⟨-, h'⟩ | h' := loadWords_ends xb yb b1 b2 m ws
    · exact hws
    · simp [h] at h'
    · simp [h] at h'
  · intro h
    have hend : (loadWords xb yb b1 b2 (ws ++ []) m).1 = some 0 := loadWords_of_rowScans h
    rwa [List.append_nil] at hend

theorem loadWords_eq_neg_iff {ws : List (List Char)} :
    (loadWords xb yb b1 b2 ws m).1 = some (-1) ↔
      ∃ us w vs, ws = us ++ w :: vs ∧ (∀ u ∈ us, RowScans u) ∧ parseRow w = none := by
  constructor
  · intro h
    obtain ⟨-, h'⟩ | ⟨hws, -⟩ | h' := loadWords_ends xb yb b1 b2 m ws
    · simp [h] at h'
    · exact hws
    · simp [h] at h'
  · rintro ⟨us, w, vs, rfl, hus, hw⟩
    rw [loadWords_of_rowScans hus]
    unfold loadWords
    rw [hw]

/-- One file into one well returns what its rows come to. -/
theorem ramMapFlash1ValueInit_fst {path : List Char} :
    (ramMapFlash1ValueInit env xb yb b1 b2 path false m).1 =
      match env.readFile path with
      | none => some (-1)
      | some text => (loadWords xb yb b1 b2 (scanWords text) m).1 := by
  cases hread : env.readFile path with
  | none => simp [ramMapFlash1ValueInit, hread]
  | some text => rw [ramMapFlash1ValueInit_of_readFile hread]

theorem ramMapFlash1ValueInit_eq_zero_iff {path : List Char} :
    (ramMapFlash1ValueInit env xb yb b1 b2 path false m).1 = some 0 ↔ FileScans env path := by
  rw [ramMapFlash1ValueInit_fst]
  unfold FileScans
  cases env.readFile path with
  | none => simp
  | some text => simp [loadWords_eq_zero_iff]

theorem ramMapFlash1ValueInit_eq_neg_iff {path : List Char} :
    (ramMapFlash1ValueInit env xb yb b1 b2 path false m).1 = some (-1) ↔ FileFails env path := by
  rw [ramMapFlash1ValueInit_fst]
  unfold FileFails
  cases env.readFile path with
  | none => simp
  | some text => simp [loadWords_eq_neg_iff]

end Ends

/-! ### What a remap returns and stores -/

/-- The well number passes the range test. It counts the wells from 0 and lets the
index `MAX_WELL_NUM` through. -/
def WellAccepted (w : UInt16) : Prop := 1 ≤ w.toNat ∧ w.toNat - 1 ≤ maxWellNum

section Remap

variable {env : Platform} {w t : UInt16} {path : List Char} {s : Rtu}

/-- A remap that is refused before its first store. -/
theorem mapItemRemap_of_refused (h : ¬ (WellAccepted w ∧ ∃ path, getMap00Path env t = some path)) :
    mapItemRemap env w.toNat t s = (some (-1), s) := by
  unfold mapItemRemap
  by_cases hw : w.toNat < 1 ∨ w.toNat - 1 > maxWellNum
  · rw [if_pos hw]
  · rw [if_neg hw]
    cases hp : getMap00Path env t with
    | none => rfl
    | some path => exact absurd ⟨by unfold WellAccepted; omega, path, hp⟩ h

/-- The map a remap leaves behind, and when it returns which code. -/
theorem mapItemRemap_of_accepted (hw : WellAccepted w) (hp : getMap00Path env t = some path) :
    (mapItemRemap env w.toNat t s).2.map =
        (fileCells env path).foldl (loadCell (s.map.xBase w.toNat) (yBase w.toNat) false true)
          (s.map.setFlash2 w.toNat 0 t) ∧
      ((mapItemRemap env w.toNat t s).1 = some 0 ↔
        FileScans env path ∧ env.msync s.msyncs = true) ∧
      ((mapItemRemap env w.toNat t s).1 = some (-1) ↔
        FileFails env path ∨ FileScans env path ∧ env.msync s.msyncs = false) := by
  have hload : (ramMapFlash1ValueInit env (s.map.xMax * (w.toNat - 1)) (yBase w.toNat) false true
      path false (s.map.setFlash2 w.toNat 0 t)).2 = _ := ramMapFlash1ValueInit_snd
  have hzero : (ramMapFlash1ValueInit env (s.map.xMax * (w.toNat - 1)) (yBase w.toNat) false true
      path false (s.map.setFlash2 w.toNat 0 t)).1 = some 0 ↔ FileScans env path :=
    ramMapFlash1ValueInit_eq_zero_iff
  have hneg : (ramMapFlash1ValueInit env (s.map.xMax * (w.toNat - 1)) (yBase w.toNat) false true
      path false (s.map.setFlash2 w.toNat 0 t)).1 = some (-1) ↔ FileFails env path :=
    ramMapFlash1ValueInit_eq_neg_iff
  unfold mapItemRemap
  rw [if_neg (by unfold WellAccepted at hw; omega)]
  simp only [hp, Rtu.onMap_map, MapT.xBase, MapT.setFlash2_xMax]
  rw [← hload, ← hzero, ← hneg]
  cases hr : ramMapFlash1ValueInit env (s.map.xMax * (w.toNat - 1)) (yBase w.toNat) false true path
    false (s.map.setFlash2 w.toNat 0 t) with
  | mk rc m =>
      split
      · -- the file scanned: the `msync` decides
        rename_i heq
        cases heq
        have hcalls :
            ((s.onMap (·.setFlash2 w.toNat 0 t)).onMap fun _ => m).msyncs = s.msyncs := rfl
        simp only [Rtu.msync, hcalls]
        cases env.msync s.msyncs <;> simp
      · rename_i rc' m' hne heq
        cases heq
        have hrc : rc ≠ some 0 := fun h => hne h
        simp [hrc]

/-! ### The stores of a remap, array by array -/

/-- The rows' default values, as addresses with words. -/
def wordWrites (xb : Nat) (cs : List RowCell) : List (Nat × UInt16) :=
  cs.map fun c => (xb + c.x.toNat, c.dV)

/-- The rows whose value is stored in the second flash too. -/
def RowCell.inFlash2 (c : RowCell) : Bool := c.flags.mapType = .sys || c.flags.mapType = .flash2

/-- The loader is one sequence of writes for each array. -/
theorem foldl_loadCell_eq {xb yb : Nat} {cs : List RowCell} {m : MapT} :
    cs.foldl (loadCell xb yb false true) m =
      { xMax := m.xMax
        ramX := Store.overlay m.ramX (wordWrites xb cs)
        ramXMapType := Store.overlay m.ramXMapType (Tables.cellWrites xb RowFlags.mapType cs)
        ramXMapRecord := Store.overlay m.ramXMapRecord (Tables.cellWrites xb RowFlags.mapRecord cs)
        ramXMapRw := Store.overlay m.ramXMapRw (Tables.cellWrites xb RowFlags.mapRw cs)
        ramY := Store.overlay m.ramY (Tables.regWrites yb RowCell.x cs)
        ramYMapType := Store.overlay m.ramYMapType (Tables.regWrites yb (fun _ => .ram) cs)
        flash1 := m.flash1
        flash2 := Store.overlay m.flash2 (wordWrites xb (cs.filter RowCell.inFlash2)) } := by
  induction cs generalizing m with
  | nil => rfl
  | cons c cs ih =>
      rw [List.foldl_cons, ih]
      cases hc : c.inFlash2 with
      | true =>
          have hkind : c.flags.mapType = .sys ∨ c.flags.mapType = .flash2 := by
            simpa [RowCell.inFlash2] using hc
          rw [List.filter_cons_of_pos hc]
          simp [loadCell, hkind, wordWrites, Tables.cellWrites, Tables.regWrites]
      | false =>
          have hkind : ¬ (c.flags.mapType = .sys ∨ c.flags.mapType = .flash2) := by
            simpa [RowCell.inFlash2] using hc
          rw [List.filter_cons_of_neg (by simp [hc])]
          simp [loadCell, hkind, wordWrites, Tables.cellWrites, Tables.regWrites]

/-- The maps have the same cells at `p`, the same registers at `q`, and the same rest. -/
structure MapT.AgreeOn (p q : Nat → Prop) (m m' : MapT) : Prop where
  xMax : m'.xMax = m.xMax
  ramX : ∀ i, p i → m'.ramX i = m.ramX i
  ramXMapType : ∀ i, p i → m'.ramXMapType i = m.ramXMapType i
  ramXMapRecord : ∀ i, p i → m'.ramXMapRecord i = m.ramXMapRecord i
  ramXMapRw : ∀ i, p i → m'.ramXMapRw i = m.ramXMapRw i
  ramY : ∀ i, q i → m'.ramY i = m.ramY i
  ramYMapType : ∀ i, q i → m'.ramYMapType i = m.ramYMapType i
  flash1 : m'.flash1 = m.flash1
  flash2 : ∀ i, p i → m'.flash2 i = m.flash2 i

/-- Type `t` in cell 0 of the well, then the rows: at the cells `p` and the registers `q`
every word given last is there already. -/
structure MapT.Holds (p q : Nat → Prop) (w : Nat) (t : UInt16) (cs : List RowCell) (m : MapT) :
    Prop where
  ramX : Store.Held p (wordWrites (m.xBase w) cs) m.ramX
  ramXMapType : Store.Held p (Tables.cellWrites (m.xBase w) RowFlags.mapType cs) m.ramXMapType
  ramXMapRecord :
    Store.Held p (Tables.cellWrites (m.xBase w) RowFlags.mapRecord cs) m.ramXMapRecord
  ramXMapRw : Store.Held p (Tables.cellWrites (m.xBase w) RowFlags.mapRw cs) m.ramXMapRw
  ramY : Store.Held q (Tables.regWrites (yBase w) RowCell.x cs) m.ramY
  ramYMapType : Store.Held q (Tables.regWrites (yBase w) (fun _ => .ram) cs) m.ramYMapType
  flash2 : Store.Held p ((m.xBase w, t) :: wordWrites (m.xBase w) (cs.filter RowCell.inFlash2))
    m.flash2

/-- The map keeps what it holds already, and nothing else that is stored. -/
theorem agreeOn_foldl_iff {p q : Nat → Prop} {w : Nat} {t : UInt16} {cs : List RowCell}
    {m : MapT} :
    m.AgreeOn p q (cs.foldl (loadCell (m.xBase w) (yBase w) false true) (m.setFlash2 w 0 t)) ↔
      m.Holds p q w t cs := by
  rw [foldl_loadCell_eq]
  constructor
  · intro h
    exact
      { ramX := Store.overlay_eqOn_iff.mp h.ramX
        ramXMapType := Store.overlay_eqOn_iff.mp h.ramXMapType
        ramXMapRecord := Store.overlay_eqOn_iff.mp h.ramXMapRecord
        ramXMapRw := Store.overlay_eqOn_iff.mp h.ramXMapRw
        ramY := Store.overlay_eqOn_iff.mp h.ramY
        ramYMapType := Store.overlay_eqOn_iff.mp h.ramYMapType
        flash2 := Store.overlay_eqOn_iff.mp h.flash2 }
  · intro h
    exact
      { xMax := rfl
        ramX := Store.overlay_eqOn_iff.mpr h.ramX
        ramXMapType := Store.overlay_eqOn_iff.mpr h.ramXMapType
        ramXMapRecord := Store.overlay_eqOn_iff.mpr h.ramXMapRecord
        ramXMapRw := Store.overlay_eqOn_iff.mpr h.ramXMapRw
        ramY := Store.overlay_eqOn_iff.mpr h.ramY
        ramYMapType := Store.overlay_eqOn_iff.mpr h.ramYMapType
        flash1 := rfl
        flash2 := Store.overlay_eqOn_iff.mpr h.flash2 }

/-- Agreeing everywhere is being the same map. -/
theorem agreeOn_all_iff {m m' : MapT} :
    m.AgreeOn (fun _ => True) (fun _ => True) m' ↔ m' = m := by
  constructor
  · rintro ⟨h0, h1, h2, h3, h4, h5, h6, h7, h8⟩
    cases m'
    cases m
    simp only [forall_const] at h0 h1 h2 h3 h4 h5 h6 h7 h8
    simp [h0, funext h1, funext h2, funext h3, funext h4, funext h5, funext h6, h7, funext h8]
  · rintro rfl
    constructor <;> simp

/-! ### Staying in scope -/

/-- A cell outside well `w`'s block. -/
def MapT.CellOutside (m : MapT) (w i : Nat) : Prop :=
  ¬ (m.xBase w ≤ i ∧ i < m.xBase w + m.xMax)

/-- A register outside well `w`'s block. -/
def RegisterOutside (w i : Nat) : Prop := ¬ (yBase w ≤ i ∧ i < yBase w + maxRegisterNum)

/-- A remap that fails leaves the map alone, and one that succeeds was about one of the
wells and leaves everything outside its blocks alone. -/
def RemapScoped (env : Platform) (w t : UInt16) (s : Rtu) : Prop :=
  ((mapItemRemap env w.toNat t s).1 = some (-1) → (mapItemRemap env w.toNat t s).2.map = s.map) ∧
  ((mapItemRemap env w.toNat t s).1 = some 0 →
    1 ≤ w.toNat ∧ w.toNat ≤ maxWellNum ∧
      s.map.AgreeOn (s.map.CellOutside w.toNat) (RegisterOutside w.toNat)
        (mapItemRemap env w.toNat t s).2.map)

/-- Once the well number and the type are accepted: where the file or the `msync` fails,
the type and the rows before the failure are in the map already; where neither does, the
well exists and so is every row outside its blocks. -/
def RemapStoresInScope (env : Platform) (w t : UInt16) (s : Rtu) : Prop :=
  ∀ path, WellAccepted w → getMap00Path env t = some path →
    (FileFails env path ∨ FileScans env path ∧ env.msync s.msyncs = false →
      s.map.Holds (fun _ => True) (fun _ => True) w.toNat t (fileCells env path)) ∧
    (FileScans env path ∧ env.msync s.msyncs = true →
      w.toNat ≤ maxWellNum ∧
        s.map.Holds (s.map.CellOutside w.toNat) (RegisterOutside w.toNat) w.toNat t
          (fileCells env path))

/-- Rows whose cells and registers are inside the blocks are in nobody's way. -/
theorem MapT.Holds.of_inside {w : Nat} {cs : List RowCell} {m : MapT} (hx : 0 < m.xMax)
    (h : ∀ c ∈ cs, c.x.toNat < m.xMax ∧ c.y.toNat < maxRegisterNum) :
    m.Holds (m.CellOutside w) (RegisterOutside w) w t cs := by
  have hcell : ∀ {α : Type} (mark : RowCell → α) (ds : List RowCell), (∀ d ∈ ds, d ∈ cs) →
      ∀ u ∈ ds.map fun c => (m.xBase w + c.x.toNat, mark c), ¬ m.CellOutside w u.1 := by
    intro α mark ds hds u hu
    obtain ⟨c, hc, rfl⟩ := List.mem_map.mp hu
    have := (h c (hds c hc)).1
    simp [CellOutside, this]
  have hreg : ∀ {α : Type} (mark : RowCell → α),
      ∀ u ∈ Tables.regWrites (yBase w) mark cs, ¬ RegisterOutside w u.1 := by
    intro α mark u hu
    obtain ⟨c, hc, rfl⟩ := List.mem_map.mp hu
    have := (h c hc).2
    simp [RegisterOutside, this]
  exact
    { ramX := .of_not_mem (hcell _ cs fun _ => id)
      ramXMapType := .of_not_mem (hcell _ cs fun _ => id)
      ramXMapRecord := .of_not_mem (hcell _ cs fun _ => id)
      ramXMapRw := .of_not_mem (hcell _ cs fun _ => id)
      ramY := .of_not_mem (hreg _)
      ramYMapType := .of_not_mem (hreg _)
      flash2 := .of_not_mem (List.forall_mem_cons.mpr
        ⟨by simp [CellOutside, hx], hcell _ _ fun d hd => List.mem_of_mem_filter hd⟩) }

/-- **A remap stays in scope exactly when its stores do.** -/
theorem mapItemRemap_scoped_iff (env : Platform) (w t : UInt16) (s : Rtu) :
    RemapScoped env w t s ↔ RemapStoresInScope env w t s := by
  unfold RemapScoped RemapStoresInScope
  by_cases hok : WellAccepted w ∧ ∃ path, getMap00Path env t = some path
  · obtain ⟨hw, path, hp⟩ := hok
    obtain ⟨hmap, hzero, hneg⟩ := mapItemRemap_of_accepted (s := s) hw hp
    rw [hzero, hneg, hmap, ← agreeOn_all_iff, agreeOn_foldl_iff, agreeOn_foldl_iff]
    constructor
    · rintro ⟨hfail, hsucc⟩ path' - hp'
      obtain rfl : path = path' := Option.some.inj (hp.symm.trans hp')
      exact ⟨hfail, fun h => (hsucc h).2⟩
    · intro h
      obtain ⟨hfail, hsucc⟩ := h path hw hp
      exact ⟨hfail, fun hs => ⟨hw.1, hsucc hs⟩⟩
  · rw [mapItemRemap_of_refused hok]
    constructor
    · intro _ path hw hp
      exact absurd ⟨hw, path, hp⟩ hok
    · intro _
      exact ⟨fun _ => rfl, by simp⟩

/-- The type file of type 2 breaks off in its second row. -/
def brokenTypeFile : Platform := .bare fun path =>
  if path = pathMap0 then some "2,/b".toList
  else if path = "/b".toList then some "300,40302,0,RW,FLASH2\n0,40001".toList
  else none

/-- The type file of type 3 is in order. -/
def soundTypeFile : Platform := .bare fun path =>
  if path = pathMap0 then some "3,/c".toList
  else if path = "/c".toList then some "300,40302,0,RW,FLASH2".toList
  else none

/-- A map of 301 cells a well, with nothing in it. -/
def emptyUnit : Rtu := .start (emptyMap 301 (fun _ => 0xFFFF) fun _ => 0xFFFF)

/-- A remap that fails has stored the type and the rows before the broken one, and one of
a ninth well succeeds. -/
theorem not_mapItemRemap_scoped :
    ¬ RemapScoped brokenTypeFile 1 2 emptyUnit ∧ ¬ RemapScoped soundTypeFile 9 3 emptyUnit := by
  constructor
  · rintro ⟨hfail, -⟩
    have hcode : (mapItemRemap brokenTypeFile 1 2 emptyUnit).1 = some (-1) := by decide +kernel
    have hmap := congrArg (fun m => m.flash2 0) (hfail hcode)
    have htype : (mapItemRemap brokenTypeFile 1 2 emptyUnit).2.map.flash2 0 = 2 := by
      decide +kernel
    have hbefore : emptyUnit.map.flash2 0 = 0xFFFF := by decide
    rw [show (mapItemRemap brokenTypeFile 1 2 emptyUnit).2.map.flash2 0 = emptyUnit.map.flash2 0
      from hmap, hbefore] at htype
    exact absurd htype (by decide)
  · rintro ⟨-, hsucc⟩
    have hcode : (mapItemRemap soundTypeFile 9 3 emptyUnit).1 = some 0 := by decide +kernel
    exact absurd (hsucc hcode).2.1 (by decide)

end Remap

end RtuA118
