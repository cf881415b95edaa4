import RtuA118.Map.Tables

/-!
# RtuA118.Map.Scan

What the scan that sizes the blocks is good for, and what the files owe on their own.

The size of a block is found over the files that the table of types lists
(`getXYZMaxLen`). `fileCells_lt_of_listed` says that rows of a listed file stay inside
the block. The common file and the built-in default type are loaded whether or not the
table lists them, and nothing looks at a register number: `FilesFit` is what the files
must keep by themselves.

All tables lie one behind the other in a single block of memory, so a row or a copy
that leaves its table lands in the next one. The model's tables are separate, and say
what the program does as long as the loads stay inside (`RtuA118.Map.Block`).
-/

namespace RtuA118

/-- The type file a boot loads for a type cell. -/
def bootPath (env : Platform) (type : UInt16) : List Char := (getMap00Path env type).getD pathMap001

/-! ### The scan of a file -/

theorem mem_rangeCells {c : RowCell} {dV : UInt16} {flags : RowFlags} : ∀ {n : Nat}
    {i j : UInt16}, i.toNat + n ≤ 65536 → c ∈ rangeCells dV flags i j n →
      i.toNat ≤ c.x.toNat ∧ c.x.toNat < i.toNat + n := by
  intro n
  induction n with
  | zero => intro i j _ h; cases h
  | succ n ih =>
      intro i j hn h
      rcases List.mem_cons.1 h with rfl | h
      · exact ⟨Nat.le_refl _, Nat.lt_add_of_pos_right (Nat.succ_pos n)⟩
      · cases n with
        | zero => cases h
        | succ n =>
            have hi : (i + 1).toNat = i.toNat + 1 := by
              rw [UInt16.toNat_add]
              exact Nat.mod_eq_of_lt (by simp; omega)
            obtain ⟨hlo, hhi⟩ := ih (by omega) h
            omega

/-- A range sets no cell beyond its last. -/
theorem Row.cells_range_le {x0 x1 y0 y1 dV : UInt16} {flags : RowFlags} {c : RowCell}
    (h : c ∈ (Row.range x0 x1 y0 y1 dV flags).cells) : c.x.toNat ≤ x1.toNat := by
  unfold Row.cells at h
  dsimp only at h
  split at h
  · cases h
  · rename_i hr
    have h01 : x0.toNat < x1.toNat := UInt16.lt_iff_toNat_lt.1 (UInt16.not_le.1 (not_or.1 hr).2)
    split at h
    · rename_i hx1
      have hc := c.x.toNat_lt
      rw [hx1]
      exact Nat.le_of_lt_succ hc
    · have h1 := x1.toNat_lt
      have := mem_rangeCells (by omega) h
      omega

theorem le_max_uint16 (a b : UInt16) : a.toNat ≤ (max a b).toNat ∧ b.toNat ≤ (max a b).toNat := by
  have hmax : max a b = if a ≤ b then b else a := rfl
  rw [hmax]
  split
  · rename_i h
    exact ⟨UInt16.le_iff_toNat_le.1 h, Nat.le_refl _⟩
  · rename_i h
    exact ⟨Nat.le_refl _, Nat.le_of_lt (UInt16.lt_iff_toNat_lt.1 (UInt16.not_le.1 h))⟩

/-- The scan of a row takes its largest index. -/
theorem maxOfRow_spec {xMax xMax' : UInt16} {w : List Char} (h : maxOfRow xMax w = some xMax') :
    xMax.toNat ≤ xMax'.toNat ∧
      ∀ row, parseRow w = some row → ∀ c ∈ row.cells, c.x.toNat ≤ xMax'.toNat := by
  unfold maxOfRow at h
  unfold parseRow
  split at h
  · rename_i htilde
    simp only [if_pos htilde]
    simp only [Option.bind_eq_bind, Option.bind_eq_some_iff, Option.pure_def, Prod.exists] at h ⊢
    obtain ⟨x0, cs, h0, cs1, h1, x1, cs2, h2, -, -, -, -, -, -, -, -, -, -, hmax⟩ := h
    obtain rfl := Option.some.inj hmax
    refine ⟨(le_max_uint16 _ _).1, fun row hrow c hc => ?_⟩
    simp only [h0, Option.some.injEq, Prod.mk.injEq] at hrow
    obtain ⟨x0', cs', ⟨rfl, rfl⟩, cs1', h1', x1', cs2', h2', -, -, y0, -, -, -, -, y1, -, -, -, -,
      dV, -, -, rfl⟩ := hrow
    obtain rfl : cs1 = cs1' := Option.some.inj (h1.symm.trans h1')
    obtain ⟨rfl, -⟩ := Prod.mk.inj (Option.some.inj (h2.symm.trans h2'))
    exact Nat.le_trans (Row.cells_range_le hc) (le_max_uint16 _ _).2
  · rename_i htilde
    simp only [if_neg htilde]
    simp only [Option.bind_eq_bind, Option.bind_eq_some_iff, Option.pure_def, Prod.exists] at h ⊢
    obtain ⟨x0, cs, h0, -, -, -, -, -, hmax⟩ := h
    obtain rfl := Option.some.inj hmax
    refine ⟨(le_max_uint16 _ _).1, fun row hrow c hc => ?_⟩
    simp only [h0, Option.some.injEq, Prod.mk.injEq] at hrow
    obtain ⟨x0', cs', ⟨rfl, rfl⟩, -, -, y0, -, -, -, -, dV, -, -, rfl⟩ := hrow
    obtain rfl := List.mem_singleton.1 hc
    exact (le_max_uint16 _ _).2

theorem foldlM_maxOfRow_spec : ∀ {ws : List (List Char)} {xMax xMax' : UInt16},
    ws.foldlM maxOfRow xMax = some xMax' → xMax.toNat ≤ xMax'.toNat ∧
      ∀ w ∈ ws, ∀ row, parseRow w = some row → ∀ c ∈ row.cells, c.x.toNat ≤ xMax'.toNat := by
  intro ws
  induction ws with
  | nil =>
      intro xMax xMax' h
      obtain rfl := Option.some.inj h
      exact ⟨Nat.le_refl _, fun w hw => absurd hw List.not_mem_nil⟩
  | cons w ws ih =>
      intro xMax xMax' h
      rw [List.foldlM_cons] at h
      obtain ⟨x1, h1, h2⟩ := Option.bind_eq_some_iff.1 h
      obtain ⟨hle1, hrow1⟩ := maxOfRow_spec h1
      obtain ⟨hle2, hrows⟩ := ih h2
      refine ⟨Nat.le_trans hle1 hle2, fun w' hw' row hrow c hc => ?_⟩
      rcases List.mem_cons.1 hw' with rfl | hw'
      · exact Nat.le_trans (hrow1 row hrow c hc) hle2
      · exact hrows w' hw' row hrow c hc

/-- The table of types lists the file. -/
def Listed (env : Platform) (path : List Char) : Prop :=
  ∃ text, env.readFile pathMap0 = some text ∧
    ∃ w ∈ scanWords text, ∃ t, parseMap0 w = some (t, path)

theorem findType_mem {type : UInt16} {path : List Char} : ∀ {ws : List (List Char)},
    findType type ws = some path → ∃ w ∈ ws, ∃ t, parseMap0 w = some (t, path) := by
  intro ws
  induction ws with
  | nil => intro h; cases h
  | cons w ws ih =>
      intro h
      unfold findType at h
      cases hp : parseMap0 w with
      | none =>
          rw [hp] at h
          cases h
      | some tp =>
          rw [hp] at h
          dsimp only at h
          split at h
          · obtain rfl := Option.some.inj h
            exact ⟨w, List.mem_cons_self, tp.1, hp⟩
          · obtain ⟨w', hw', t, ht⟩ := ih h
            exact ⟨w', List.mem_cons_of_mem _ hw', t, ht⟩

theorem listed_of_getMap00Path {env : Platform} {type : UInt16} {path : List Char}
    (h : getMap00Path env type = some path) : Listed env path := by
  obtain ⟨text, htext, hfind⟩ := Option.bind_eq_some_iff.1 h
  exact ⟨text, htext, findType_mem hfind⟩

theorem maxOfTypes_spec {env : Platform} : ∀ {ws : List (List Char)} {xMax xMax' : UInt16},
    maxOfTypes env ws xMax = some xMax' → xMax.toNat ≤ xMax'.toNat ∧
      ∀ w ∈ ws, ∀ t path, parseMap0 w = some (t, path) →
        ∀ c ∈ fileCells env path, c.x.toNat ≤ xMax'.toNat := by
  intro ws
  induction ws with
  | nil =>
      intro xMax xMax' h
      obtain rfl := Option.some.inj h
      exact ⟨Nat.le_refl _, fun w hw => absurd hw List.not_mem_nil⟩
  | cons w ws ih =>
      intro xMax xMax' h
      unfold maxOfTypes at h
      simp only [Option.bind_eq_bind, Option.bind_eq_some_iff, Prod.exists] at h
      obtain ⟨t, path, hp, text, htext, x1, hrows, hrest⟩ := h
      obtain ⟨hle1, hfile⟩ := foldlM_maxOfRow_spec hrows
      obtain ⟨hle2, hfiles⟩ := ih hrest
      refine ⟨Nat.le_trans hle1 hle2, fun w' hw' t' path' hp' c hc => ?_⟩
      rcases List.mem_cons.1 hw' with rfl | hw'
      · obtain ⟨-, rfl⟩ := Prod.mk.inj (Option.some.inj (hp.symm.trans hp'))
        unfold fileCells at hc
        rw [htext] at hc
        obtain ⟨w'', hw'', row, hrow, hc⟩ := mem_wordCells hc
        exact Nat.le_trans (hfile w'' hw'' row hrow c hc) hle2
      · exact hfiles w' hw' t' path' hp' c hc

/-- **Rows of a listed file stay inside the block.** -/
theorem fileCells_lt_of_listed {env : Platform} {path : List Char} {xMax : UInt16}
    (hx : getXYZMaxLen env = some xMax) (hx0 : xMax ≠ 0) (h : Listed env path) :
    ∀ c ∈ fileCells env path, c.x.toNat < xMax.toNat := by
  obtain ⟨text, htext, w, hw, t, hp⟩ := h
  unfold getXYZMaxLen at hx
  simp only [Option.bind_eq_bind, Option.bind_eq_some_iff, htext, Option.some.injEq] at hx
  obtain ⟨text', rfl, xm, hmax, hx⟩ := hx
  split at hx
  · cases hx
  · obtain rfl := Option.some.inj hx
    intro c hc
    have hle := (maxOfTypes_spec hmax).2 w hw t path hp c hc
    -- the increment has not wrapped
    have hlt := xm.toNat_lt
    have hne : xm.toNat + 1 ≠ 65536 := by
      intro heq
      apply hx0
      apply UInt16.toNat_inj.1
      rw [UInt16.toNat_add]
      simp [heq]
    rw [UInt16.toNat_add]
    simp
    omega

/-! ### Inside the arrays -/

/-- What the loader sets for a cell, its pointers at these bases, is inside the arrays: they hold
eight blocks of `xMax` cells and eight of the registers, and the first flash its words. -/
structure RowCell.Inside (xMax xb yb : Nat) (flash1IsNew : Bool) (c : RowCell) : Prop where
  cell : xb + c.x.toNat < xMax * maxWellNum
  register : yb + c.y.toNat < maxRegisterNum * maxWellNum
  shared : flash1IsNew = true → c.flags.mapType = .sys ∨ c.flags.mapType = .flash1 →
    c.x.toNat < flash1MaxLen

/-- A cell that is kept in the first flash has its word there. -/
def RowCell.HasWord (xMax xb : Nat) (c : RowCell) : Prop :=
  c.flags.mapType = .flash1 → (xb + c.x.toNat) % xMax < flash1MaxLen

/-! ### Files that fit -/

/-- The mapping files fit the store, whatever the flash files hold. -/
structure FilesFit (env : Platform) (xMax : Nat) : Prop where
  /-- A block holds the cells that are copied. -/
  block : flash1MaxLen ≤ xMax
  commonCell : ∀ c ∈ fileCells env pathMap1, c.x.toNat < xMax
  commonFlash1 : ∀ c ∈ fileCells env pathMap1,
    c.flags.mapType = .sys ∨ c.flags.mapType = .flash1 → c.x.toNat < flash1MaxLen
  commonRegister : ∀ c ∈ fileCells env pathMap1, c.y.toNat < maxRegisterNum
  /-- The default type, which a well falls back on whether it is listed or not. -/
  defaultCell : ∀ c ∈ fileCells env pathMap001, c.x.toNat < xMax
  /-- The registers of every type are the well's. -/
  typeRegister : ∀ t, ∀ c ∈ fileCells env (bootPath env t), c.y.toNat < maxRegisterNum

/-- The rows of every type stay in the block: listed types by the scan, the default by
assumption. -/
theorem FilesFit.typeCell {env : Platform} {xMax : UInt16} (hx : getXYZMaxLen env = some xMax)
    (hx0 : xMax ≠ 0) (h : FilesFit env xMax.toNat) (t : UInt16) :
    ∀ c ∈ fileCells env (bootPath env t), c.x.toNat < xMax.toNat := by
  intro c hc
  unfold bootPath at hc
  cases hp : getMap00Path env t with
  | some path =>
      rw [hp] at hc
      exact fileCells_lt_of_listed hx hx0 (listed_of_getMap00Path hp) c hc
  | none =>
      rw [hp] at hc
      exact h.defaultCell c hc

end RtuA118
