import RtuA118.Map.Tables

/-!
# RtuA118.Map.Stores

Internal writes as stores. Away from the type cell a write leaves the mapping
tables alone and sets `ram_x` at its own cell only; over RAM cells it is exactly
`Store.put`. A write stops early only at a flash cell whose `msync` fails.
-/

namespace RtuA118

/-- What a function-mapped write other than a change of type does to the map. -/
theorem mapMapFunWrite_map {env : Platform} {v v' : UInt16} {w i : Nat} {s s' : Rtu}
    (h : mapMapFunWrite env v w i s = some (v', s')) (h0 : i ≠ mapChangeWellType) :
    s'.map = s.map ∨ s'.map = (s.map.setFlash2 w i v).setRamX w i v ∨
      (mapGetDO0 ≤ i ∧ i < mapGetDO0 + 8 ∧ s'.map = (s.map.setFlash2 1 i v).setRamX w i v) ∨
      s'.map = s.map.setRamX w i v := by
  obtain ⟨-, -, rfl⟩ | ⟨-, -, rfl⟩ | ⟨-, -, rfl⟩ | ⟨hdo, -, rfl⟩ | ⟨-, -, rfl⟩ :=
    mapMapFunWrite_cases h h0
  · exact .inl rfl
  · exact .inl (rtuResetFlash1_map v s)
  · exact .inr (.inl rfl)
  · exact .inr (.inr (.inl ⟨hdo.1, hdo.2, by rw [storeFun_map, gpioSetDo_map]⟩))
  · exact .inr (.inr (.inr rfl))

section Cell

variable {env : Platform} {w i : Nat} {v : UInt16} {s : Rtu}

theorem writeCell_tables_of_ne
    (h0 : s.map.ramXMapType (s.map.xBase w + i) = .sys → i ≠ mapChangeWellType) :
    (writeCell env w i v s).2.map.tables = s.map.tables := by
  rw [writeCell_tables, if_neg fun h => h0 h.2 h.1]

/-- Only the cell's own word of `ram_x` is set. -/
theorem writeCell_ramX_of_ne
    (h0 : s.map.ramXMapType (s.map.xBase w + i) = .sys → i ≠ mapChangeWellType) {b : Nat}
    (hb : b ≠ s.map.xBase w + i) :
    (writeCell env w i v s).2.map.ramX b = s.map.ramX b := by
  cases ht : s.map.ramXMapType (s.map.xBase w + i) with
  | null =>
      simp only [writeCell, ht]
      exact Function.update_of_ne hb _ _
  | ram =>
      simp only [writeCell, ht]
      exact Function.update_of_ne hb _ _
  | flash1 =>
      rw [writeCell_flash1 ht]
      dsimp only [Rtu.onMap_map]
      split
      · exact Function.update_of_ne hb _ _
      · rfl
  | flash2 =>
      rw [writeCell_flash2 ht]
      dsimp only [Rtu.onMap_map]
      split
      · exact Function.update_of_ne hb _ _
      · rfl
  -- a function sets the cell's own word once or twice, and no other
  | sys =>
      simp only [writeCell, ht]
      split
      · rename_i v' s' hf
        rw [Rtu.onMap_map]
        obtain hm | hm | ⟨-, -, hm⟩ | hm := mapMapFunWrite_map hf (h0 ht)
        · rw [hm]
          exact Function.update_of_ne hb _ _
        · rw [hm]
          exact (Function.update_of_ne hb _ _).trans (Function.update_of_ne hb _ _)
        · rw [hm]
          exact (Function.update_of_ne hb _ _).trans (Function.update_of_ne hb _ _)
        · rw [hm]
          exact (Function.update_of_ne hb _ _).trans (Function.update_of_ne hb _ _)
      · exact Function.update_of_ne hb _ _
  | _ => simp [writeCell, ht]

/-- Only a cell of the first flash sets it, at the cell's index. -/
theorem writeCell_flash1_of_ne
    (h0 : s.map.ramXMapType (s.map.xBase w + i) = .sys → i ≠ mapChangeWellType) {j : Nat}
    (hj : s.map.ramXMapType (s.map.xBase w + i) = .flash1 → j ≠ i) :
    (writeCell env w i v s).2.map.flash1 j = s.map.flash1 j := by
  cases ht : s.map.ramXMapType (s.map.xBase w + i) with
  | flash1 =>
      rw [writeCell_flash1 ht]
      dsimp only [Rtu.onMap_map]
      split <;> exact Function.update_of_ne (hj ht) _ _
  | flash2 =>
      rw [writeCell_flash2 ht]
      dsimp only [Rtu.onMap_map]
      split <;> rfl
  | sys =>
      simp only [writeCell, ht]
      split
      · rename_i v' s' hf
        obtain hm | hm | ⟨-, -, hm⟩ | hm := mapMapFunWrite_map hf (h0 ht) <;>
          rw [Rtu.onMap_map, hm] <;> rfl
      · rfl
  | _ => simp [writeCell, ht, MapT.setRamX]

/-- The second flash is set at the cell, or at an output's cell of well 1. -/
theorem writeCell_flash2_of_ne
    (h0 : s.map.ramXMapType (s.map.xBase w + i) = .sys → i ≠ mapChangeWellType) {b : Nat}
    (hb : b ≠ s.map.xBase w + i)
    (hdo : mapGetDO0 ≤ i → i < mapGetDO0 + 8 → b ≠ s.map.xBase 1 + i) :
    (writeCell env w i v s).2.map.flash2 b = s.map.flash2 b := by
  cases ht : s.map.ramXMapType (s.map.xBase w + i) with
  | flash1 =>
      rw [writeCell_flash1 ht]
      dsimp only [Rtu.onMap_map]
      split <;> rfl
  | flash2 =>
      rw [writeCell_flash2 ht]
      dsimp only [Rtu.onMap_map]
      split <;> exact Function.update_of_ne hb _ _
  | sys =>
      simp only [writeCell, ht]
      split
      · rename_i v' s' hf
        rw [Rtu.onMap_map]
        obtain hm | hm | ⟨hlo, hhi, hm⟩ | hm := mapMapFunWrite_map hf (h0 ht)
        · rw [hm]
          rfl
        · rw [hm]
          exact Function.update_of_ne hb _ _
        · rw [hm]
          exact Function.update_of_ne (hdo hlo hhi) _ _
        · rw [hm]
          rfl
      · rfl
  | _ => simp [writeCell, ht, MapT.setRamX]

/-- Kinds whose cells live in `ram_x` alone. -/
def MapKind.IsRam (k : MapKind) : Prop := k = .null ∨ k = .ram

theorem writeCell_of_ram (ht : (s.map.ramXMapType (s.map.xBase w + i)).IsRam) :
    writeCell env w i v s = (true, s.onMap (·.setRamX w i v)) := by
  unfold writeCell
  rcases ht with ht | ht <;> rw [ht]

/-- A write at this cell does not stop the loop. -/
def Goes (env : Platform) (m : MapT) (b : Nat) : Prop :=
  (∀ n, env.msync n = true) ∨ m.ramXMapType b ≠ .flash1 ∧ m.ramXMapType b ≠ .flash2

theorem goes_of_ram {m : MapT} {b : Nat} (h : m.ramXMapType b = .ram) : Goes env m b :=
  .inr ⟨by simp [h], by simp [h]⟩

theorem writeCell_goes (h : Goes env s.map (s.map.xBase w + i)) :
    (writeCell env w i v s).1 = true := by
  cases ht : s.map.ramXMapType (s.map.xBase w + i) with
  | flash1 =>
      rw [writeCell_flash1 ht]
      exact h.elim (fun h => h _) fun h => absurd ht h.1
  | flash2 =>
      rw [writeCell_flash2 ht]
      exact h.elim (fun h => h _) fun h => absurd ht h.2
  | sys =>
      simp only [writeCell, ht]
      split <;> rfl
  | _ => simp [writeCell, ht]

end Cell

/-! ### Runs of cells -/

section Cells

variable {env : Platform} {w : Nat}

/-- One turn of the write loop, with its state. -/
theorem writeCells_cons {i : Nat} {v : UInt16} {vs : List UInt16} {s : Rtu} :
    writeCells env w i (v :: vs) s =
      if (writeCell env w i v s).1 then writeCells env w (i + 1) vs (writeCell env w i v s).2
      else (-1, (writeCell env w i v s).2) := by
  rw [writeCells]
  rcases writeCell env w i v s with ⟨_ | _, s'⟩ <;> rfl

/-- What each cell's write keeps, the loop keeps. -/
theorem writeCells_induction {motive : Rtu → Prop} (lo : Nat)
    (step : ∀ i v s, lo ≤ i → motive s → motive (writeCell env w i v s).2) :
    ∀ {vs : List UInt16} {i : Nat} {s : Rtu}, lo ≤ i → motive s →
      motive (writeCells env w i vs s).2 := by
  intro vs
  induction vs with
  | nil => intro i s _ hs; exact hs
  | cons v vs ih =>
      intro i s hi hs
      rw [writeCells_cons]
      split
      · exact ih (Nat.le_succ_of_le hi) (step i v s hi hs)
      · exact step i v s hi hs

theorem writeCells_tables {vs : List UInt16} {i : Nat} {s : Rtu} (hi : 1 ≤ i) :
    (writeCells env w i vs s).2.map.tables = s.map.tables :=
  writeCells_induction (motive := fun t => t.map.tables = s.map.tables) 1
    (fun _ _ _ hj ht => (writeCell_tables_of_ne fun _ => Nat.ne_of_gt hj).trans ht) hi rfl

theorem xBase_eq_of_tables {m m' : MapT} (h : m'.tables = m.tables) (w : Nat) :
    m'.xBase w = m.xBase w :=
  congrArg (fun t => t.xMax * (w - 1)) h

theorem ramXMapType_eq_of_tables {m m' : MapT} (h : m'.tables = m.tables) :
    m'.ramXMapType = m.ramXMapType :=
  congrArg Tables.ramXMapType h

/-- Outside the window `ram_x` is as before. -/
theorem writeCells_ramX_of_not_mem {b : Nat} : ∀ {vs : List UInt16} {i : Nat} {s : Rtu}, 1 ≤ i →
    ¬ (s.map.xBase w + i ≤ b ∧ b < s.map.xBase w + i + vs.length) →
    (writeCells env w i vs s).2.map.ramX b = s.map.ramX b := by
  intro vs
  induction vs with
  | nil => intro i s _ _; rfl
  | cons v vs ih =>
      intro i s hi hb
      rw [List.length_cons] at hb
      have ht : (writeCell env w i v s).2.map.tables = s.map.tables :=
        writeCell_tables_of_ne fun _ => Nat.ne_of_gt hi
      have hcell : (writeCell env w i v s).2.map.ramX b = s.map.ramX b :=
        writeCell_ramX_of_ne (fun _ => Nat.ne_of_gt hi) (by omega)
      rw [writeCells_cons]
      split
      · rw [ih (Nat.le_succ_of_le hi) (by rw [xBase_eq_of_tables ht]; omega), hcell]
      · exact hcell

/-- A RAM cell the loop gets to has its word afterwards. -/
theorem writeCells_ramX_of_mem {d : UInt16} : ∀ {vs : List UInt16} {i k : Nat} {s : Rtu}, 1 ≤ i →
    k < vs.length → (∀ j < k, Goes env s.map (s.map.xBase w + (i + j))) →
    (s.map.ramXMapType (s.map.xBase w + (i + k))).IsRam →
    (writeCells env w i vs s).2.map.ramX (s.map.xBase w + (i + k)) = vs.getD k d := by
  intro vs
  induction vs with
  | nil => intro i k s _ hk; exact absurd hk (Nat.not_lt_zero k)
  | cons v vs ih =>
      intro i k s hi hk hgo hram
      have ht : (writeCell env w i v s).2.map.tables = s.map.tables :=
        writeCell_tables_of_ne fun _ => Nat.ne_of_gt hi
      have hx := xBase_eq_of_tables ht w
      rw [writeCells_cons]
      cases k with
      -- the first word is stored here and not overwritten behind
      | zero =>
          rw [Nat.add_zero] at hram ⊢
          rw [writeCell_of_ram hram, if_pos rfl, writeCells_ramX_of_not_mem (Nat.le_succ_of_le hi)
            (by rw [show (s.onMap (·.setRamX w i v)).map.xBase w = s.map.xBase w from rfl]; omega)]
          exact Function.update_self _ _ _
      | succ k =>
          have h0 := writeCell_goes (v := v) (hgo 0 (Nat.succ_pos k))
          rw [Nat.add_zero] at h0
          rw [if_pos h0, show i + (k + 1) = i + 1 + k by omega, ← hx]
          rw [List.length_cons] at hk
          refine ih (Nat.le_succ_of_le hi) (by omega) (fun j hj => ?_) ?_
          · have hj' := hgo (j + 1) (by omega)
            rw [show i + (j + 1) = i + 1 + j by omega] at hj'
            unfold Goes at hj' ⊢
            rw [hx, ramXMapType_eq_of_tables ht]
            exact hj'
          · rw [hx, ramXMapType_eq_of_tables ht, show i + 1 + k = i + (k + 1) by omega]
            exact hram

/-- Over RAM cells the loop is one block store and nothing else. -/
theorem writeCells_of_ram : ∀ {vs : List UInt16} {i : Nat} {s : Rtu},
    (∀ j < vs.length, (s.map.ramXMapType (s.map.xBase w + (i + j))).IsRam) →
    writeCells env w i vs s =
      (0, s.onMap fun m => { m with ramX := Store.put (m.xBase w + i) vs m.ramX }) := by
  intro vs
  induction vs with
  | nil =>
      intro i s _
      rw [writeCells]
      simp [Rtu.onMap]
  | cons v vs ih =>
      intro i s hram
      rw [List.length_cons] at hram
      have h0 := hram 0 (Nat.succ_pos _)
      rw [Nat.add_zero] at h0
      rw [writeCells_cons, writeCell_of_ram h0, if_pos rfl, ih]
      · simp only [Rtu.onMap, Store.put_cons, MapT.setRamX, MapT.xBase, Nat.add_assoc]
      · intro j hj
        have h := hram (j + 1) (by omega)
        rw [show i + (j + 1) = i + 1 + j by omega] at h
        exact h

end Cells

end RtuA118
