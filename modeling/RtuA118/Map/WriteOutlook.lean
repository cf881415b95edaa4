import RtuA118.Map.BatchWrite
import RtuA118.Map.StoreEffect

/-!
# RtuA118.Map.WriteOutlook

What an external write has stored, read off the tables and the `msync` calls before it.

`Outlook.afterRegisters` goes over a request without the words of the map: which word each
register is given, whether its inner write returns `-1`, what it stands for, and what the rows of
a type that the request changes to bring (`Outlook.gives`). As long as the inner writes succeed,
every place that a register can stand for has the word that it is given last
(`wordAt_modbusWriteLoop`).
-/

namespace RtuA118

/-! ### Registers over the tables -/

/-- The word that a row of type `t` leaves in its cell: its default. The cell of the well type
is given the type once the rows are loaded, and reads it if it is one of `ram_x` by then. -/
def RowCell.leaves (t : UInt16) (c : RowCell) : UInt16 :=
  if c.x.toNat = mapChangeWellType ∧ c.flags.mapType ≠ .flash2 then t else c.dV

namespace Tables

/-- The write loop hands the register's word on to its cell. -/
def storesCell (tb : Tables) (w y : Nat) : Prop :=
  tb.ramYMapType (yBase w + y) = .ram ∧ tb.ramXMapRw (tb.xBase w + tb.cellOf w y) = .rw

instance (tb : Tables) (w y : Nat) : Decidable (tb.storesCell w y) :=
  inferInstanceAs (Decidable (_ ∧ _))

/-- The kind of the cell a mapped register leads to. -/
def cellKind (tb : Tables) (w y : Nat) : MapKind := tb.ramXMapType (tb.xBase w + tb.cellOf w y)

/-- The register is unmapped or leads to a plain cell that may be written. -/
def writable (tb : Tables) (w y : Nat) : Prop :=
  tb.ramYMapType (yBase w + y) = .null ∨
    tb.ramYMapType (yBase w + y) = .ram ∧ (tb.cellKind w y).Plain ∧
      tb.ramXMapRw (tb.xBase w + tb.cellOf w y) = .rw

instance (tb : Tables) (w y : Nat) : Decidable (tb.writable w y) :=
  inferInstanceAs (Decidable (_ ∨ _))

/-- The word a register stands for. -/
def storageOf (tb : Tables) (w y : Nat) : Storage :=
  if tb.ramYMapType (yBase w + y) = .ram then
    if tb.cellKind w y = .flash1 then .shared (tb.cellOf w y) else .cell w (tb.cellOf w y)
  else .own w y

/-- The register leads to the well type. -/
def leadsToType (tb : Tables) (w y : Nat) : Prop :=
  tb.storesCell w y ∧ tb.cellOf w y = mapChangeWellType ∧ tb.cellKind w y = .sys

@[simp] theorem writable_tables (m : MapT) (w y : Nat) :
    m.tables.writable w y ↔ m.WritableRegister w y := Iff.rfl

@[simp] theorem storageOf_tables (m : MapT) (w y : Nat) :
    m.tables.storageOf w y = m.storageOf w y := rfl

/-- The register leads to a cell of its block that has code behind it. -/
def functionMapped (tb : Tables) (w y : Nat) : Prop :=
  tb.ramYMapType (yBase w + y) = .ram ∧ tb.cellOf w y < tb.xMax ∧ tb.cellKind w y = .sys

instance (tb : Tables) (w y : Nat) : Decidable (tb.leadsToType w y) :=
  inferInstanceAs (Decidable (_ ∧ _))

instance (tb : Tables) (w y : Nat) : Decidable (tb.functionMapped w y) :=
  inferInstanceAs (Decidable (_ ∧ _))

/-- What the words are given to, when word `v` is written to the register: the place that it
stands for, or the cells of the rows of a type that it changes to. -/
def gives (env : Platform) (w y : Nat) (v : UInt16) (tb : Tables) : List (Storage × UInt16) :=
  if tb.leadsToType w y then
    (remapCells env w v).map fun c => (.cell w c.x.toNat, c.leaves v)
  else if tb.writable w y then [(tb.storageOf w y, v)]
  else []

/-- The word that a register reads, if `held` are the words of the file. One that leads outside
its block leaves the word of the read, which is `0xFFFF` before. -/
def wordOf (tb : Tables) (held : Storage → UInt16) (w y : Nat) : UInt16 :=
  if tb.ramYMapType (yBase w + y) = .ram ∧ ¬ tb.cellOf w y < tb.xMax then 0xFFFF
  else held (tb.storageOf w y)

end Tables

namespace Outlook

/-- The inner write of the register returns `-1`. -/
def Refuses (env : Platform) (w y : Nat) (o : Outlook) : Prop :=
  o.tables.storesCell w y ∧
    (o.tables.cellOf w y < o.tables.xMax → o.Fails env w (o.tables.cellOf w y))

instance (env : Platform) (w y : Nat) (o : Outlook) : Decidable (o.Refuses env w y) :=
  inferInstanceAs (Decidable (_ ∧ _))

theorem synced_of_not_refuses {env : Platform} {w y : Nat} {o : Outlook}
    (h : ¬ o.Refuses env w y) (hsc : o.tables.storesCell w y) :
    o.tables.cellOf w y < o.tables.xMax ∧
      ((o.tables.cellKind w y).IsFlash → env.msync o.calls = true) := by
  unfold Refuses Fails at h
  unfold Tables.cellKind
  simp only [hsc, true_and, Classical.not_imp, not_and, Bool.not_eq_false] at h
  exact h

/-- The outlook after a word is written to the register. -/
def afterRegister (env : Platform) (w y : Nat) (v : UInt16) (o : Outlook) : Outlook where
  tables := o.tables.afterWrite env w y v
  calls :=
    if o.tables.storesCell w y ∧ o.tables.cellOf w y < o.tables.xMax then
      o.calls + storeCalls env (o.tables.cellKind w y) (o.tables.cellOf w y) v
    else o.calls

/-- The outlook before register `k` of a request, and the word cursor. -/
def afterRegisters (env : Platform) (w addr : Nat) (ws : Nat → UInt16) (o : Outlook) :
    Nat → Outlook × Nat
  | 0 => (o, 0)
  | k + 1 =>
    let r := o.afterRegisters env w addr ws k
    (r.1.afterRegister env w (addr + k) (ws r.2),
      if r.1.tables.readOnly w (addr + k) then r.2 else r.2 + 1)

section Request

variable (env : Platform) (w addr : Nat) (ws : Nat → UInt16) (o : Outlook)

/-- The tables before register `k` of a request. -/
def tablesAt (k : Nat) : Tables := (o.afterRegisters env w addr ws k).1.tables

/-- Where the word cursor points before register `k` of a request. -/
def cursorAt (k : Nat) : Nat := (o.afterRegisters env w addr ws k).2

/-- The word that register `k` of a request is given. -/
def given (k : Nat) : UInt16 := ws (o.cursorAt env w addr ws k)

/-- Register `k` of a request may be written when the loop comes to it. -/
def WritableAt (k : Nat) : Prop := (o.tablesAt env w addr ws k).writable w (addr + k)

/-- What the first `n` registers of a request give, in their order. -/
def gives : Nat → List (Storage × UInt16)
  | 0 => []
  | n + 1 => gives n ++
      (o.tablesAt env w addr ws n).gives env w (addr + n) (o.given env w addr ws n)

end Request

end Outlook

/-! ### The rows of a change of type -/

theorem MapKind.IsCell.plain_or_sys {k : MapKind} (h : k.IsCell) : k.Plain ∨ k = .sys := by
  unfold MapKind.Plain
  cases k <;> simp_all [MapKind.IsCell]

namespace Tables

section Rows

variable {env : Platform} {w x y : Nat} {t : UInt16} {tb : Tables}

/-- A cell that no row names. -/
theorem remap_cell (h : ∀ c ∈ remapCells env w t, c.x.toNat ≠ x) :
    (tb.remap env w t).ramXMapType (tb.xBase w + x) = tb.ramXMapType (tb.xBase w + x) := by
  refine Store.overlay_of_not_mem fun hmem => ?_
  simp only [cellWrites, List.map_map, List.mem_map, Function.comp] at hmem
  obtain ⟨c, hc, heq⟩ := hmem
  exact h c hc (by omega)

/-- A register that no row names. -/
theorem remap_register (h : ∀ c ∈ remapCells env w t, c.y.toNat ≠ y) :
    (tb.remap env w t).ramY (yBase w + y) = tb.ramY (yBase w + y) ∧
      (tb.remap env w t).ramYMapType (yBase w + y) = tb.ramYMapType (yBase w + y) := by
  have hnot : ∀ {α : Type} (mark : RowCell → α),
      yBase w + y ∉ (regWrites (yBase w) mark (remapCells env w t)).map Prod.fst := by
    intro α mark hmem
    simp only [regWrites, List.map_map, List.mem_map, Function.comp] at hmem
    obtain ⟨c, hc, heq⟩ := hmem
    exact h c hc (by omega)
  exact ⟨Store.overlay_of_not_mem (hnot _), Store.overlay_of_not_mem (hnot _)⟩

/-- The last of the rows that name a cell. -/
theorem exists_last_row {cs : List RowCell} (h : ¬ ∀ c ∈ cs, c.x.toNat ≠ x) :
    ∃ before c behind, cs = before ++ c :: behind ∧ c.x.toNat = x ∧
      ∀ d ∈ behind, d.x.toNat ≠ x := by
  have hmem : x ∈ cs.map fun c => c.x.toNat := by
    simp only [not_forall, not_not] at h
    obtain ⟨c, hc, hx⟩ := h
    exact List.mem_map.2 ⟨c, hc, hx⟩
  obtain ⟨before, c, behind, hcs, hx, hbehind⟩ := Store.exists_last_of_mem hmem
  exact ⟨before, c, behind, hcs, hx, fun d hd hdx => hbehind (List.mem_map.2 ⟨d, hd, hdx⟩)⟩

/-- The row named last is the one whose marks stay in the cell. -/
theorem overlay_last_row {α : Type} {xb : Nat} {mark : RowCell → α} {f : Nat → α}
    {before behind : List RowCell} {c : RowCell} (hx : c.x.toNat = x)
    (hbehind : ∀ d ∈ behind, d.x.toNat ≠ x) :
    Store.overlay f ((before ++ c :: behind).map fun c => (xb + c.x.toNat, mark c)) (xb + x)
      = mark c := by
  refine Store.overlay_last f (by rw [hx]) fun hmem => ?_
  obtain ⟨d, hd, heq⟩ := List.mem_map.1 hmem
  exact hbehind d hd (by omega)

/-- A cell that rows name is of the kind of the last of them. -/
theorem remap_cell_last {before behind : List RowCell} {c : RowCell}
    (hcs : remapCells env w t = before ++ c :: behind) (hx : c.x.toNat = x)
    (hbehind : ∀ d ∈ behind, d.x.toNat ≠ x) :
    (tb.remap env w t).ramXMapType (tb.xBase w + x) = c.flags.mapType := by
  unfold remap loadCells cellWrites
  dsimp only
  rw [hcs]
  exact overlay_last_row hx hbehind

/-- A register that rows name is mapped, to the cell of one of them. -/
theorem remap_register_named (h : ¬ ∀ c ∈ remapCells env w t, c.y.toNat ≠ y) :
    (tb.remap env w t).ramYMapType (yBase w + y) = .ram ∧
      ∃ c ∈ remapCells env w t, (tb.remap env w t).ramY (yBase w + y) = c.x := by
  have hmem : yBase w + y ∈ (remapCells env w t).map fun c => yBase w + c.y.toNat := by
    simp only [not_forall, not_not] at h
    obtain ⟨c, hc, hy⟩ := h
    exact List.mem_map.2 ⟨c, hc, by rw [hy]⟩
  obtain ⟨before, c, behind, hcs, hy, hbehind⟩ := Store.exists_last_of_mem hmem
  refine ⟨?_, c, by rw [hcs]; simp, ?_⟩
  · unfold remap loadCells regWrites
    dsimp only
    rw [hcs]
    exact Store.overlay_last _ hy hbehind
  · unfold remap loadCells regWrites
    dsimp only
    rw [hcs]
    exact Store.overlay_last _ hy hbehind

/-- The register is unmapped, or leads to a cell of a kind that reads. -/
def Led (tb : Tables) (w y : Nat) : Prop :=
  tb.ramYMapType (yBase w + y) = .null ∨
    tb.ramYMapType (yBase w + y) = .ram ∧ ((tb.cellKind w y).Plain ∨ tb.cellKind w y = .sys)

/-- It is so after a word is written to any register. -/
theorem Led.afterWrite {y' : Nat} (h : tb.Led w y) : (tb.afterWrite env w y' t).Led w y := by
  unfold Tables.afterWrite
  split
  · -- the own word of an unmapped register
    rename_i hnull
    rcases h with h | ⟨hr, hk⟩
    · exact .inl h
    · have hne : yBase w + y ≠ yBase w + y' := by
        intro heq
        rw [heq, hnull] at hr
        cases hr
      have hcell : (tb.setRamY w y' t).cellOf w y = tb.cellOf w y := by
        exact congrArg UInt16.toNat (Function.update_of_ne hne _ _)
      refine .inr ⟨hr, ?_⟩
      unfold cellKind
      rw [hcell]
      exact hk
  · split
    · -- the rows of a type bring kinds that read
      have hcellKind : ∀ x, (tb.ramXMapType (tb.xBase w + x)).Plain ∨
          tb.ramXMapType (tb.xBase w + x) = .sys ∨
          (¬ ∀ c ∈ remapCells env w t, c.x.toNat ≠ x) →
          ((tb.remap env w t).ramXMapType (tb.xBase w + x)).Plain ∨
            (tb.remap env w t).ramXMapType (tb.xBase w + x) = .sys := by
        intro x hx
        by_cases hnamed : ∀ c ∈ remapCells env w t, c.x.toNat ≠ x
        · rw [remap_cell hnamed]
          tauto
        · obtain ⟨before, c, behind, hcs, hcx, hbehind⟩ := exists_last_row hnamed
          rw [remap_cell_last hcs hcx hbehind]
          exact MapKind.IsCell.plain_or_sys (isCell_of_mem_remapCells c (by rw [hcs]; simp))
      by_cases hnamed : ∀ c ∈ remapCells env w t, c.y.toNat ≠ y
      · obtain ⟨hy, hyt⟩ := remap_register hnamed
        rcases h with h | ⟨hr, hk⟩
        · exact .inl (hyt.trans h)
        · refine .inr ⟨hyt.trans hr, ?_⟩
          unfold cellKind cellOf
          rw [hy]
          refine hcellKind _ ?_
          rcases hk with hk | hk
          · exact .inl hk
          · exact .inr (.inl hk)
      · obtain ⟨hr, c, hc, hy⟩ := remap_register_named hnamed
        refine .inr ⟨hr, ?_⟩
        unfold cellKind cellOf
        rw [hy]
        exact hcellKind _ (.inr (.inr fun h => h c hc rfl))
    · exact h

/-- A register of the well can stand for the word. -/
def Stands (tb : Tables) (w : Nat) : Storage → Prop
  | .own w' y => w' = w ∧ y < maxRegisterNum ∧ tb.ramYMapType (yBase w + y) ≠ .ram
  | .cell w' i => w' = w ∧ i < tb.xMax ∧ (tb.ramXMapType (tb.xBase w + i)).Plain ∧
      tb.ramXMapType (tb.xBase w + i) ≠ .flash1
  | .shared _ => True

/-- So it does for the word of a register without code behind it that leads inside. -/
theorem Led.stands {m : MapT} (h : m.tables.Led w y) (hy : y < maxRegisterNum)
    (hin : m.ramYMapType (yBase w + y) = .ram → m.cellOf w y < m.xMax)
    (hcode : ¬ m.tables.functionMapped w y) :
    m.PlainRegister w y ∧ m.tables.Stands w (m.storageOf w y) := by
  unfold MapT.storageOf MapT.cellStorage
  rcases h with hnull | ⟨hr, hkind⟩
  · have hne : ¬ m.ramYMapType (yBase w + y) = .ram := fun hr =>
      absurd (hr.symm.trans hnull) (by decide)
    rw [if_neg hne]
    exact ⟨.inl hnull, rfl, hy, hne⟩
  · have hr : m.ramYMapType (yBase w + y) = .ram := hr
    have hplain : (m.ramXMapType (m.xBase w + m.cellOf w y)).Plain :=
      hkind.resolve_right fun hsys => hcode ⟨hr, hin hr, hsys⟩
    refine ⟨.inr ⟨hr, hplain⟩, ?_⟩
    rw [if_pos hr]
    split
    · trivial
    · rename_i hne
      exact ⟨rfl, hin hr, hplain, hne⟩

theorem Stands.valid {m : MapT} {st : Storage} (hw : 1 ≤ w) (h : m.tables.Stands w st) :
    m.Valid st := by
  cases st with
  | own w' y => exact ⟨h.1 ▸ hw, h.2.1⟩
  | cell w' i =>
      obtain ⟨rfl, hi, -, hne⟩ := h
      exact ⟨hw, hi, hne⟩
  | shared i => trivial

end Rows

end Tables

/-! ### One register written -/

section Turn

variable {env : Platform} {w y : Nat} {v : UInt16} {s : Rtu} {st : Storage}

/-- The words of a change of type: the rows' defaults, over the type in the second flash. -/
theorem mapItemRemap_words (env : Platform) (w : Nat) (t : UInt16) (s : Rtu) :
    (mapItemRemap env w t s).2.map.ramX =
        Store.overlay s.map.ramX (wordWrites (s.map.xBase w) (Tables.remapCells env w t)) ∧
      (mapItemRemap env w t s).2.map.flash1 = s.map.flash1 ∧
      ∃ f, (∀ i ≠ mapChangeWellType,
          f (s.map.xBase w + i) = s.map.flash2 (s.map.xBase w + i)) ∧
        (mapItemRemap env w t s).2.map.flash2 = Store.overlay f
          (wordWrites (s.map.xBase w) ((Tables.remapCells env w t).filter RowCell.inFlash2)) := by
  obtain ⟨hcells, hs⟩ | ⟨path, -, hcells, s', rfl, hs⟩ := mapItemRemap_cases env w t s
  · rw [hs, hcells]
    exact ⟨rfl, rfl, _, fun _ _ => rfl, rfl⟩
  · have hmap : (mapItemRemap env w t s).2.map = (fileCells env path).foldl
        (loadCell (s.map.xBase w) (yBase w) false true) (s.map.setFlash2 w 0 t) := by
      rcases hs with hs | hs <;> rw [hs] <;> rfl
    rw [hmap, hcells, foldl_loadCell_eq]
    refine ⟨rfl, rfl, _, fun i hi => ?_, rfl⟩
    exact Function.update_of_ne (by unfold mapChangeWellType at hi; omega) _ _

/-- A row's cell reads the word that the row leaves. -/
theorem wordAt_remap_named {x : Nat} {before behind : List RowCell} {c : RowCell}
    (hcs : Tables.remapCells env w v = before ++ c :: behind) (hx : c.x.toNat = x)
    (hbehind : ∀ d ∈ behind, d.x.toNat ≠ x) :
    ((mapItemRemap env w v s).2.map.setRamX w mapChangeWellType v).wordAt (.cell w x)
      = c.leaves v := by
  obtain ⟨hram, -, f, -, hflash2⟩ := mapItemRemap_words env w v s
  have htab : (mapItemRemap env w v s).2.map.tables = _ := mapItemRemap_tables
  have hbase : (mapItemRemap env w v s).2.map.xBase w = s.map.xBase w :=
    congrArg (fun tb => Tables.xBase tb w) htab
  have hkind : (mapItemRemap env w v s).2.map.ramXMapType (s.map.xBase w + x) = c.flags.mapType :=
    (congrFun (congrArg Tables.ramXMapType htab) _).trans (Tables.remap_cell_last hcs hx hbehind)
  unfold MapT.wordAt MapT.setRamX MapT.xBase RowCell.leaves
  dsimp only
  rw [show (mapItemRemap env w v s).2.map.xMax * (w - 1) = s.map.xBase w from hbase, hkind, hx]
  by_cases hk : c.flags.mapType = .flash2
  · have hin : c.inFlash2 = true := by simp [RowCell.inFlash2, hk]
    rw [if_pos hk, if_neg fun h => h.2 hk, hflash2, hcs, List.filter_append,
      List.filter_cons_of_pos hin]
    exact Tables.overlay_last_row hx fun d hd => hbehind d (List.mem_of_mem_filter hd)
  · rw [if_neg hk]
    by_cases h0 : x = mapChangeWellType
    · rw [if_pos ⟨h0, hk⟩, h0, Function.update_self]
    · rw [if_neg fun h => h0 h.1, Function.update_of_ne (by omega), hram, hcs]
      exact Tables.overlay_last_row hx hbehind

/-- A cell that no row names, other than the type's own, keeps its word. -/
theorem wordAt_remap_not_named {x : Nat} (h0 : x ≠ mapChangeWellType)
    (h : ∀ c ∈ Tables.remapCells env w v, c.x.toNat ≠ x) :
    ((mapItemRemap env w v s).2.map.setRamX w mapChangeWellType v).wordAt (.cell w x)
      = s.map.wordAt (.cell w x) := by
  obtain ⟨hram, -, f, hf, hflash2⟩ := mapItemRemap_words env w v s
  have htab : (mapItemRemap env w v s).2.map.tables = _ := mapItemRemap_tables
  have hbase : (mapItemRemap env w v s).2.map.xBase w = s.map.xBase w :=
    congrArg (fun tb => Tables.xBase tb w) htab
  have hkind : (mapItemRemap env w v s).2.map.ramXMapType (s.map.xBase w + x) = _ :=
    (congrFun (congrArg Tables.ramXMapType htab) _).trans (Tables.remap_cell h)
  have hnot : ∀ cs : List RowCell, (∀ c ∈ cs, c ∈ Tables.remapCells env w v) →
      s.map.xBase w + x ∉ (wordWrites (s.map.xBase w) cs).map Prod.fst := by
    intro cs hcs hmem
    simp only [wordWrites, List.map_map, List.mem_map, Function.comp] at hmem
    obtain ⟨c, hc, heq⟩ := hmem
    exact h c (hcs c hc) (by omega)
  unfold MapT.wordAt MapT.setRamX MapT.xBase
  dsimp only
  rw [show (mapItemRemap env w v s).2.map.xMax * (w - 1) = s.map.xBase w from hbase, hkind,
    Function.update_of_ne (by omega), hram, hflash2,
    Store.overlay_of_not_mem (hnot _ fun _ => id),
    Store.overlay_of_not_mem (hnot _ fun _ => List.mem_of_mem_filter), hf x h0]
  rfl

/-- **A change of type** gives the rows' words to their cells. -/
theorem wordAt_mapItemRemap (hsys : s.map.ramXMapType (s.map.xBase w + mapChangeWellType) = .sys)
    (hst : (s.map.tables.remap env w v).Stands w st) :
    ((mapItemRemap env w v s).2.map.setRamX w mapChangeWellType v).wordAt st =
      Store.overlay s.map.wordAt
        ((Tables.remapCells env w v).map fun c => (.cell w c.x.toNat, c.leaves v)) st := by
  have htab : (mapItemRemap env w v s).2.map.tables = _ := mapItemRemap_tables
  cases st with
  | shared i =>
      rw [Store.overlay_of_not_mem (by simp)]
      exact congrFun (mapItemRemap_words env w v s).2.1 i
  | own w' y' =>
      obtain ⟨rfl, -, hne⟩ := hst
      have hnamed : ∀ c ∈ Tables.remapCells env w' v, c.y.toNat ≠ y' := by
        by_contra h
        exact hne (Tables.remap_register_named h).1
      rw [Store.overlay_of_not_mem (by simp)]
      exact (congrFun (congrArg Tables.ramY htab) _).trans (Tables.remap_register hnamed).1
  | cell w' x =>
      obtain ⟨rfl, -, hplain, -⟩ := hst
      by_cases hnamed : ∀ c ∈ Tables.remapCells env w' v, c.x.toNat ≠ x
      · -- the cell keeps its kind, so it is not the one of the type
        have h0 : x ≠ mapChangeWellType := by
          rintro rfl
          have hkind : (s.map.tables.remap env w' v).ramXMapType
              ((s.map.tables.remap env w' v).xBase w' + mapChangeWellType) = .sys :=
            (Tables.remap_cell hnamed).trans hsys
          rw [hkind] at hplain
          exact absurd hplain (by decide)
        rw [Store.overlay_of_not_mem, wordAt_remap_not_named h0 hnamed]
        simpa using hnamed
      · obtain ⟨before, c, behind, hcs, hcx, hbehind⟩ := Tables.exists_last_row hnamed
        rw [wordAt_remap_named hcs hcx hbehind, hcs]
        refine (Store.overlay_last _ (by rw [hcx]) ?_).symm
        simpa using hbehind

/-- A cell with code behind it other than the type's, or one of no kind that is stored, leaves
the words that registers stand for. -/
theorem wordAt_writeCell_of_not_plain {x : Nat} (hw : 1 ≤ w) (hx : x < s.map.xMax)
    (hk : ¬ (s.map.ramXMapType (s.map.xBase w + x)).Plain)
    (h0 : ¬ (x = mapChangeWellType ∧ s.map.ramXMapType (s.map.xBase w + x) = .sys))
    (hst : s.map.tables.Stands w st) :
    (writeCell env w x v s).2.map.wordAt st = s.map.wordAt st := by
  -- of these kinds only a function cell does anything
  by_cases hsys : s.map.ramXMapType (s.map.xBase w + x) = .sys
  · have hre : ¬ s.map.Retypes env w x v := fun h => h0 ⟨h.1, hsys⟩
    have htab := writeCell_tables_eq hre
    cases st with
    | own w' y' => exact congrFun (congrArg Tables.ramY htab) _
    | shared i =>
        show (writeCell env w x v s).2.map.flash1 i = s.map.flash1 i
        rw [writeCell_flash1_eq hre, if_neg (by simp [hsys])]
    | cell w' i =>
        obtain ⟨rfl, hi, hplain, -⟩ := hst
        have hne : i ≠ x := by
          rintro rfl
          exact hk hplain
        have hbase : (writeCell env w' x v s).2.map.xBase w' = s.map.xBase w' :=
          xBase_eq_of_tables htab w'
        have hflash2 : (writeCell env w' x v s).2.map.flash2 (s.map.xBase w' + i)
            = s.map.flash2 (s.map.xBase w' + i) := by
          rw [writeCell_flash2_eq hre, if_neg (by simp [hsys])]
          split
          · refine Function.update_of_ne (fun heq => hne ?_) _ _
            exact ((MapT.xBase_add_inj hw (by unfold flash2Well; split <;> omega) hi hx).1 heq).2
          · rfl
        unfold MapT.wordAt
        dsimp only
        rw [hbase, ramXMapType_eq_of_tables htab, hflash2, writeCell_ramX_ne hre (by omega)]
  · have hsame : (writeCell env w x v s).2 = s := by
      unfold MapKind.Plain at hk
      cases ht : s.map.ramXMapType (s.map.xBase w + x) <;> simp_all [writeCell]
    rw [hsame]

/-- **One register is written**: its word and those of the rows it brings are given, to the
places that they are for, and no other word is set. -/
theorem wordAt_writeRegister (hw : 1 ≤ w) (hy : y < maxRegisterNum)
    (hstores : ¬ s.outlook.Refuses env w y)
    (hst : (s.map.tables.afterWrite env w y v).Stands w st) :
    (writeRegister env w y v s).map.wordAt st =
      Store.overlay s.map.wordAt (s.map.tables.gives env w y v) st := by
  unfold Tables.afterWrite at hst
  unfold writeRegister Tables.gives
  -- an unmapped register is its own word, a mapped one its cell's
  by_cases hnull : s.map.ramYMapType (yBase w + y) = .null
  · have htype : ¬ s.map.tables.leadsToType w y := fun h =>
      absurd (h.1.1.symm.trans hnull) (by decide)
    have hstand : s.map.Valid st := by
      rw [if_pos (show s.map.tables.ramYMapType (yBase w + y) = .null from hnull)] at hst
      cases st with
      | own w' y' => exact ⟨hst.1 ▸ hw, hst.2.1⟩
      | cell w' i => exact Tables.Stands.valid hw hst
      | shared i => trivial
    have hown : s.map.tables.storageOf w y = .own w y := if_neg (by simp [hnull])
    rw [if_pos hnull, if_neg htype, if_pos (.inl hnull), hown]
    rw [Rtu.onMap_map, MapT.wordAt_setRamY hw hy hstand, Store.overlay_cons, Store.overlay_nil,
      Function.update_apply]
    simp only [eq_comm]
  · rw [if_neg (show ¬ s.map.tables.ramYMapType (yBase w + y) = .null from hnull)] at hst
    rw [if_neg hnull]
    by_cases hsc : s.map.tables.storesCell w y
    · have hx : s.map.cellOf w y < s.map.xMax := (Outlook.synced_of_not_refuses hstores hsc).1
      have htakes : s.map.tables.takes w y := .inr ⟨hsc.1, hsc.2, hx⟩
      rw [if_pos htakes]
      by_cases htype : s.map.tables.leadsToType w y
      · -- the cell that changes the well's type stores the rows of that type first
        have h0 : s.map.cellOf w y = mapChangeWellType := htype.2.1
        have hsys : s.map.ramXMapType (s.map.xBase w + mapChangeWellType) = .sys := h0 ▸ htype.2.2
        rw [if_pos ⟨htakes, h0, hsys⟩] at hst
        have hmap : (writeCell env w (s.map.cellOf w y) v s).2.map
            = (mapItemRemap env w v s).2.map.setRamX w mapChangeWellType v := by
          rw [h0]
          simp only [writeCell, hsys]
          rw [mapMapFunWrite_change]
          rfl
        rw [if_pos htype, hmap]
        exact wordAt_mapItemRemap hsys hst
      · have hnot : ¬ (s.map.cellOf w y = mapChangeWellType ∧
            s.map.ramXMapType (s.map.xBase w + s.map.cellOf w y) = .sys) :=
          fun h => htype ⟨hsc, h.1, h.2⟩
        rw [if_neg fun h => hnot ⟨h.2.1, by rw [← h.2.1] at h; exact h.2.2⟩] at hst
        rw [if_neg htype]
        by_cases hk : (s.map.ramXMapType (s.map.xBase w + s.map.cellOf w y)).Plain
        · have hwr : s.map.tables.writable w y := .inr ⟨hsc.1, hk, hsc.2⟩
          have hstore : s.map.tables.storageOf w y = s.map.cellStorage w (s.map.cellOf w y) :=
            if_pos hsc.1
          have hmap : (writeCell env w (s.map.cellOf w y) v s).2.map = _ :=
            writeCell_of_synced (Outlook.synced_of_not_refuses hstores hsc).2 hk
          rw [if_pos hwr, hmap, MapT.wordAt_putPlain hw hx (hst.valid hw), hstore,
            Store.overlay_cons, Store.overlay_nil, Function.update_apply]
          simp only [eq_comm]
        · have hwr : ¬ s.map.tables.writable w y := fun h =>
            hk (h.resolve_left hnull).2.1
          rw [if_neg hwr, Store.overlay_nil]
          exact wordAt_writeCell_of_not_plain hw hx hk hnot hst
    · have htakes : ¬ s.map.tables.takes w y := fun h =>
        hsc ⟨(h.resolve_left hnull).1, (h.resolve_left hnull).2.1⟩
      have htype : ¬ s.map.tables.leadsToType w y := fun h => hsc h.1
      have hwr : ¬ s.map.tables.writable w y := fun h =>
        hsc ⟨(h.resolve_left hnull).1, (h.resolve_left hnull).2.2⟩
      rw [if_neg htakes, if_neg htype, if_neg hwr, Store.overlay_nil]

/-- A word that no row of a turn is given to could be stood for before it. -/
theorem Tables.Stands.before {tb : Tables} (h : (tb.afterWrite env w y v).Stands w st)
    (hst : st ∉ (tb.gives env w y v).map Prod.fst) : tb.Stands w st := by
  unfold Tables.afterWrite at h
  split at h
  · cases st <;> exact h
  · split at h
    · rename_i hnull hchange
      obtain ⟨htakes, h0, hsys⟩ := hchange
      obtain ⟨hr, hrw, -⟩ := htakes.resolve_left hnull
      have htype : tb.leadsToType w y := ⟨⟨hr, hrw⟩, h0, by rwa [cellKind, h0]⟩
      unfold gives at hst
      rw [if_pos htype] at hst
      cases st with
      | shared i => trivial
      | own w' y' =>
          obtain ⟨rfl, hy, hne⟩ := h
          have hnamed : ∀ c ∈ remapCells env w' v, c.y.toNat ≠ y' := by
            by_contra h
            exact hne (remap_register_named h).1
          exact ⟨rfl, hy, fun heq => hne ((remap_register hnamed).2.trans heq)⟩
      | cell w' i =>
          obtain ⟨rfl, hi, hk⟩ := h
          have hnamed : ∀ c ∈ remapCells env w' v, c.x.toNat ≠ i := by
            intro c hc hci
            exact hst (by simpa using ⟨c, hc, hci⟩)
          have hkind : (tb.remap env w' v).ramXMapType ((tb.remap env w' v).xBase w' + i) = _ :=
            remap_cell hnamed
          rw [hkind] at hk
          exact ⟨rfl, hi, hk⟩
    · exact h

theorem writeRegister_outlook (hw : 1 ≤ w) (hw8 : w ≤ maxWellNum) :
    (writeRegister env w y v s).outlook = s.outlook.afterRegister env w y v := by
  have hcalls : (writeRegister env w y v s).msyncs =
      (s.outlook.afterRegister env w y v).calls := by
    unfold writeRegister Outlook.afterRegister
    dsimp only
    by_cases hnull : s.map.ramYMapType (yBase w + y) = .null
    · rw [if_pos hnull, if_neg fun h => absurd (h.1.1.symm.trans hnull) (by decide)]
      rfl
    · rw [if_neg hnull]
      by_cases hsc : s.map.tables.storesCell w y ∧ s.map.cellOf w y < s.map.xMax
      · rw [if_pos (.inr ⟨hsc.1.1, hsc.1.2, hsc.2⟩), writeCell_msyncs hw hw8]
        exact (if_pos hsc).symm
      · rw [if_neg fun h => hsc (by
          obtain ⟨hr, hrw, hx⟩ := h.resolve_left hnull
          exact ⟨⟨hr, hrw⟩, hx⟩)]
        exact (if_neg hsc).symm
  unfold Rtu.outlook at hcalls ⊢
  rw [writeRegister_tables, hcalls]
  rfl

end Turn

/-! ### The write loop -/

/-- What the inner write of a turn returns; `none` where the turn calls none. -/
def WriteLoop.innerCode (env : Platform) (buf : Nat → UInt16) (bigL : Bool) (w : Nat)
    (c : WriteLoop) : Option Int :=
  if c.rtu.map.tables.storesCell w c.i then
    some (zigbeeWriteRegisters env (fun _ => orderWord bigL (buf c.p)) 1 w
      (c.rtu.map.cellOf w c.i) c.rtu).1
  else none

/-- The words of a buffer in the requested byte order. -/
def orderWords (bigL : Bool) (buf : Nat → UInt16) : Nat → UInt16 := fun p => orderWord bigL (buf p)

section Loop

variable {env : Platform} {buf : Nat → UInt16} {bigL : Bool} {w addr n k : Nat} {s : Rtu}

theorem zigbeeWriteRegisters_one_fst {x : Nat} (hw : 1 ≤ w) (hw8 : w ≤ maxWellNum) :
    (zigbeeWriteRegisters env buf 1 w x s).1 = -1 ↔
      (x < s.map.xMax → (writeCell env w x (buf 0) s).1 = false) := by
  unfold zigbeeWriteRegisters
  by_cases hx : x < s.map.xMax
  · rw [if_pos ((cellArgsOk_one_iff hw hw8).2 hx)]
    simp only [Int.toNat_one, List.range_one, List.map_cons, List.map_nil, Int.toNat_natCast,
      writeCells]
    rcases h : writeCell env w x (buf 0) s with ⟨_ | _, s'⟩ <;> simp [hx]
  · rw [if_neg (fun h => hx ((cellArgsOk_one_iff hw hw8).1 h))]
    simp [hx]

/-- The inner write of a turn returns `-1` where the outlook says so. -/
theorem WriteLoop.innerCode_iff {c : WriteLoop} (hw : 1 ≤ w) (hw8 : w ≤ maxWellNum) :
    c.innerCode env buf bigL w = some (-1) ↔ c.rtu.outlook.Refuses env w c.i := by
  unfold innerCode Outlook.Refuses
  by_cases hsc : c.rtu.map.tables.storesCell w c.i
  · rw [if_pos hsc, Option.some.injEq, zigbeeWriteRegisters_one_fst hw hw8]
    simp only [writeCell_fst_iff]
    exact ⟨fun h => ⟨hsc, h⟩, fun h => h.2⟩
  · rw [if_neg hsc]
    exact ⟨fun h => (nomatch h), fun h => absurd h.1 hsc⟩

/-- The loop and the outlook go together. -/
theorem modbusWriteLoop_outlook (hw : 1 ≤ w) (hw8 : w ≤ maxWellNum) (k : Nat) :
    ((modbusWriteLoop env buf bigL w addr s k).rtu.outlook,
        (modbusWriteLoop env buf bigL w addr s k).p) =
      s.outlook.afterRegisters env w addr (orderWords bigL buf) k := by
  induction k with
  | zero => rfl
  | succ k ih =>
      rw [modbusWriteLoop, WriteLoop.turn_eq hw hw8, Outlook.afterRegisters, ← ih,
        modbusWriteLoop_i]
      dsimp only
      rw [writeRegister_outlook hw hw8]
      rfl

theorem modbusWriteLoop_tables (hw : 1 ≤ w) (hw8 : w ≤ maxWellNum) (k : Nat) :
    (modbusWriteLoop env buf bigL w addr s k).rtu.map.tables
      = s.outlook.tablesAt env w addr (orderWords bigL buf) k :=
  congrArg (fun r => r.1.tables) (modbusWriteLoop_outlook hw hw8 k)

theorem modbusWriteLoop_succ_rtu (hw : 1 ≤ w) (hw8 : w ≤ maxWellNum) (k : Nat) :
    (modbusWriteLoop env buf bigL w addr s (k + 1)).rtu =
      writeRegister env w (addr + k)
        (s.outlook.given env w addr (orderWords bigL buf) k)
        (modbusWriteLoop env buf bigL w addr s k).rtu := by
  have hp : (modbusWriteLoop env buf bigL w addr s k).p = _ :=
    congrArg Prod.snd (modbusWriteLoop_outlook hw hw8 k)
  rw [modbusWriteLoop, WriteLoop.turn_eq hw hw8, modbusWriteLoop_i, Outlook.given,
    Outlook.cursorAt, ← hp]
  rfl

/-- The turn of a register whose inner write succeeds. -/
theorem not_refuses_at (hw : 1 ≤ w) (hw8 : w ≤ maxWellNum)
    (h : ¬ (s.outlook.afterRegisters env w addr (orderWords bigL buf) k).1.Refuses env w
      (addr + k)) :
    ¬ (modbusWriteLoop env buf bigL w addr s k).rtu.outlook.Refuses env w (addr + k) := by
  rw [show (modbusWriteLoop env buf bigL w addr s k).rtu.outlook = _ from
    congrArg Prod.fst (modbusWriteLoop_outlook hw hw8 k)]
  exact h

/-- A register that may be written when the loop comes to it leads to a cell that reads from then
on, or to none. -/
theorem led_at {m : Nat} (hkm : k ≤ m)
    (hwr : s.outlook.WritableAt env w addr (orderWords bigL buf) k) :
    (s.outlook.tablesAt env w addr (orderWords bigL buf) m).Led w (addr + k) := by
  induction m, hkm using Nat.le_induction with
  | base => exact hwr.imp_right fun h => ⟨h.1, .inl h.2.1⟩
  | succ m _ ih => exact ih.afterWrite

/-- **The words of a request.** Where every inner write succeeds each place that a register can
stand for has the word that it is given last, or the one that it had. -/
theorem wordAt_modbusWriteLoop (hw : 1 ≤ w) (hw8 : w ≤ maxWellNum)
    (hrange : addr + n ≤ maxRegisterNum)
    (hstores : ∀ k < n, ¬ (s.outlook.afterRegisters env w addr (orderWords bigL buf) k).1.Refuses
      env w (addr + k)) :
    ∀ (m : Nat) (st : Storage), m ≤ n →
      (s.outlook.tablesAt env w addr (orderWords bigL buf) m).Stands w st →
      (modbusWriteLoop env buf bigL w addr s m).rtu.map.wordAt st =
        Store.overlay s.map.wordAt (s.outlook.gives env w addr (orderWords bigL buf) m) st := by
  intro m
  induction m with
  | zero => exact fun _ _ _ => rfl
  | succ m ih =>
      intro st hm hst
      have htab : (modbusWriteLoop env buf bigL w addr s m).rtu.map.tables = _ :=
        modbusWriteLoop_tables hw hw8 m
      have hturn : ((modbusWriteLoop env buf bigL w addr s m).rtu.map.tables.afterWrite env w
          (addr + m) (s.outlook.given env w addr (orderWords bigL buf) m)).Stands w st := by
        rw [htab]
        exact hst
      rw [modbusWriteLoop_succ_rtu hw hw8, wordAt_writeRegister hw (by omega)
        (not_refuses_at hw hw8 (hstores m hm)) hturn, Outlook.gives, Store.overlay_append, ← htab]
      exact Store.overlay_eq_iff.2 fun hnot =>
        ih st (Nat.le_of_succ_le hm) (htab ▸ hturn.before hnot)

/-- A register that leads outside its block leaves the word of the read. -/
theorem mapModbusReadRegisters_outside {y : Nat} (bigL : Bool) (hw : 1 ≤ w) (hw8 : w ≤ maxWellNum)
    (hy : y < maxRegisterNum) (hr : s.map.ramYMapType (yBase w + y) = .ram)
    (hout : ¬ s.map.cellOf w y < s.map.xMax) :
    mapModbusReadRegisters env s 1 w y bigL = some [orderWord bigL 0xFFFF] := by
  have hargs : registerArgsOk 1 w y = true := by
    unfold maxWellNum at hw8
    unfold maxRegisterNum at hy
    exact registerArgsOk_iff.2 (by omega)
  have hread : readRegister env s 0xFFFF w y = 0xFFFF := by
    unfold MapT.cellOf at hout
    unfold readRegister
    dsimp only
    rw [hr]
    dsimp only
    rw [zigbeeReadRegisters_one hw hw8, if_neg hout]
  unfold mapModbusReadRegisters
  rw [if_pos hargs]
  simp only [Int.toNat_one, Int.toNat_natCast, modbusReadLoop, hread]

/-- A writable register that leads to no code reads what the place that it leads to at the end
is given last. -/
theorem mapModbusReadRegisters_modbusWriteLoop (hw : 1 ≤ w) (hw8 : w ≤ maxWellNum)
    (hrange : addr + n ≤ maxRegisterNum)
    (hstores : ∀ k < n, ¬ (s.outlook.afterRegisters env w addr (orderWords bigL buf) k).1.Refuses
      env w (addr + k)) (hk : k < n)
    (hwr : s.outlook.WritableAt env w addr (orderWords bigL buf) k)
    (hcode : ¬ (s.outlook.tablesAt env w addr (orderWords bigL buf) n).functionMapped w
      (addr + k)) :
    mapModbusReadRegisters env (modbusWriteLoop env buf bigL w addr s n).rtu 1 w (addr + k : Nat)
      bigL = some [orderWord bigL ((s.outlook.tablesAt env w addr (orderWords bigL buf) n).wordOf
        (Store.overlay s.map.wordAt (s.outlook.gives env w addr (orderWords bigL buf) n)) w
          (addr + k))] := by
  have htab : (modbusWriteLoop env buf bigL w addr s n).rtu.map.tables = _ :=
    modbusWriteLoop_tables hw hw8 n
  have hword := fun st => wordAt_modbusWriteLoop hw hw8 hrange hstores n st (Nat.le_refl n)
  have hled : (s.outlook.tablesAt env w addr (orderWords bigL buf) n).Led w (addr + k) :=
    led_at (Nat.le_of_lt hk) hwr
  rw [← htab] at hcode hled hword ⊢
  by_cases hout : (modbusWriteLoop env buf bigL w addr s n).rtu.map.ramYMapType
      (yBase w + (addr + k)) = .ram ∧
    ¬ (modbusWriteLoop env buf bigL w addr s n).rtu.map.cellOf w (addr + k)
      < (modbusWriteLoop env buf bigL w addr s n).rtu.map.xMax
  · rw [mapModbusReadRegisters_outside bigL hw hw8 (by omega) hout.1 hout.2]
    exact congrArg (fun v => some [orderWord bigL v]) (if_pos hout).symm
  · have hin := fun hr => not_not.1 fun hlt => hout ⟨hr, hlt⟩
    obtain ⟨hplain, hstands⟩ := hled.stands (by omega) hin hcode
    rw [mapModbusReadRegisters_word bigL hw hw8 (by omega) hplain hin, hword _ hstands]
    exact congrArg (fun v => some [orderWord bigL v]) (if_neg hout).symm

end Loop

end RtuA118
