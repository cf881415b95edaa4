import RtuA118.Map.Tables

/-!
# RtuA118.Map.BatchWrite

One write request of `n` words against `n` requests of one word each.

A turn of the write loop does one thing to the unit, `writeRegister`, with the
word under the word cursor. The two sides therefore differ only in **which** word
each turn takes: single requests always take the register's own, the batch takes
the one its cursor points at, and that cursor falls back by one at every
read-only register. `CursorsMeet` says that wherever a word is taken the two are
the same word.
-/

namespace RtuA118

/-! ### One turn -/

/-- The unit after word `v` is written to register `i` of well `w`. -/
def writeRegister (env : Platform) (w i : Nat) (v : UInt16) (s : Rtu) : Rtu :=
  if s.map.ramYMapType (yBase w + i) = .null then s.onMap (·.setRamY w i v)
  else if s.map.tables.takes w i then (writeCell env w (s.map.cellOf w i) v s).2
  else s

/-- What lands when word `v` is written to register `i`. -/
def landingOf (env : Platform) (w i : Nat) (v : UInt16) (s : Rtu) : List Landing :=
  if s.map.ramYMapType (yBase w + i) = .null then [⟨i, v, none⟩]
  else if s.map.tables.takes w i then [⟨i, v, callOf env w (s.map.cellOf w i) v s⟩]
  else []

theorem WriteLoop.turn_eq {env : Platform} {buf : Nat → UInt16} {bigL : Bool} {w : Nat}
    {c : WriteLoop} (hw : 1 ≤ w) (hw8 : w ≤ 8) :
    c.turn env buf bigL w =
      { i := c.i + 1
        p := if c.rtu.map.tables.readOnly w c.i then c.p else c.p + 1
        landed := c.landed ++ landingOf env w c.i (orderWord bigL (buf c.p)) c.rtu
        rtu := writeRegister env w c.i (orderWord bigL (buf c.p)) c.rtu } := by
  have hro : c.rtu.map.tables.readOnly w c.i ↔ c.rtu.map.ramYMapType (yBase w + c.i) = .ram ∧
      c.rtu.map.ramXMapRw (c.rtu.map.xBase w + c.rtu.map.cellOf w c.i) ≠ .rw := Iff.rfl
  have htk : c.rtu.map.tables.takes w c.i ↔ c.rtu.map.ramYMapType (yBase w + c.i) = .null ∨
      c.rtu.map.ramYMapType (yBase w + c.i) = .ram ∧
        c.rtu.map.ramXMapRw (c.rtu.map.xBase w + c.rtu.map.cellOf w c.i) = .rw ∧
          c.rtu.map.cellOf w c.i < c.rtu.map.xMax := Iff.rfl
  unfold WriteLoop.turn landingOf writeRegister
  cases h : c.rtu.map.ramYMapType (yBase w + c.i) with
  | null => simp [hro, h]
  | ram =>
      dsimp only
      by_cases hrw : c.rtu.map.ramXMapRw (c.rtu.map.xBase w + c.rtu.map.cellOf w c.i) = .rw
      · -- a read-write cell: the write reaches it when it lies inside the block
        rw [if_neg (not_not.2 hrw), zigbeeWriteRegisters_one hw hw8]
        by_cases hx : c.rtu.map.cellOf w c.i < c.rtu.map.xMax <;> simp [hro, htk, h, hrw, hx]
      · rw [if_pos hrw]
        simp [hro, htk, h, hrw]
  | flash1 => simp [hro, htk, h]
  | flash2 => simp [hro, htk, h]
  | sys => simp [hro, htk, h]
  | record => simp [hro, htk, h]
  | ro => simp [hro, htk, h]
  | rw => simp [hro, htk, h]

/-- A register that takes no word is left alone, whatever the word. -/
theorem writeRegister_of_not_takes {env : Platform} {w i : Nat} {v : UInt16} {s : Rtu}
    (h : ¬ s.map.tables.takes w i) : writeRegister env w i v s = s := by
  have hn : s.map.ramYMapType (yBase w + i) ≠ .null := fun hn => h (.inl hn)
  unfold writeRegister
  rw [if_neg hn, if_neg h]

theorem landingOf_of_not_takes {env : Platform} {w i : Nat} {v : UInt16} {s : Rtu}
    (h : ¬ s.map.tables.takes w i) : landingOf env w i v s = [] := by
  have hn : s.map.ramYMapType (yBase w + i) ≠ .null := fun hn => h (.inl hn)
  unfold landingOf
  rw [if_neg hn, if_neg h]

/-- A register that takes a word tells which. -/
theorem landingOf_inj {env : Platform} {w i : Nat} {u v : UInt16} {s : Rtu}
    (h : s.map.tables.takes w i) (heq : landingOf env w i u s = landingOf env w i v s) : u = v := by
  unfold landingOf at heq
  by_cases hn : s.map.ramYMapType (yBase w + i) = .null
  · rw [if_pos hn, if_pos hn] at heq
    simpa using heq
  · rw [if_neg hn, if_neg hn, if_pos h, if_pos h] at heq
    exact (Landing.mk.inj (List.cons.inj heq).1).2.1

theorem landingOf_length {env : Platform} {w i : Nat} {u v : UInt16} {s : Rtu} :
    (landingOf env w i u s).length = (landingOf env w i v s).length := by
  unfold landingOf
  split
  · rfl
  · split <;> rfl

/-- `writeRegister` refines `Tables.afterWrite`. -/
theorem writeRegister_tables {env : Platform} {w i : Nat} {v : UInt16} {s : Rtu} :
    (writeRegister env w i v s).map.tables = s.map.tables.afterWrite env w i v := by
  unfold writeRegister Tables.afterWrite
  rw [MapT.tables_ramYMapType]
  by_cases hn : s.map.ramYMapType (yBase w + i) = .null
  · rw [if_pos hn, if_pos hn]
    rfl
  · rw [if_neg hn, if_neg hn]
    by_cases ht : s.map.tables.takes w i
    · rw [if_pos ht, writeCell_tables, Tables.cellOf_tables]
      by_cases h0 : s.map.cellOf w i = mapChangeWellType
      · rw [h0]
        simp only [ht, true_and, MapT.tables_ramXMapType, Tables.xBase_tables]
      · rw [if_neg (fun h => h0 h.1), if_neg (fun h => h0 h.2.1)]
    · rw [if_neg ht, if_neg (fun h => ht h.1)]

/-! ### The two sides -/

/-- The successive one-word requests: word `k` to register `addr + k`. -/
def singleWrites (env : Platform) (buf : Nat → UInt16) (w addr : Nat) (bigL : Bool) (s : Rtu) :
    Nat → List Landing × Rtu
  | 0 => ([], s)
  | k + 1 =>
    let r := singleWrites env buf w addr bigL s k
    let r' := modbusWriteLanded env (fun _ => buf k) 1 w (addr + k : Nat) bigL r.2
    (r.1 ++ r'.2.1, r'.2.2)

theorem singleWrites_succ {env : Platform} {buf : Nat → UInt16} {w addr k : Nat} {bigL : Bool}
    {s : Rtu} (hw : 1 ≤ w) (hw8 : w ≤ 8) (hlen : addr + (k + 1) ≤ 10000) :
    singleWrites env buf w addr bigL s (k + 1) =
      ((singleWrites env buf w addr bigL s k).1 ++ landingOf env w (addr + k)
        (orderWord bigL (buf k)) (singleWrites env buf w addr bigL s k).2,
      writeRegister env w (addr + k) (orderWord bigL (buf k))
        (singleWrites env buf w addr bigL s k).2) := by
  have hone : modbusWriteLanded env (fun _ => buf k) 1 w (addr + k : Nat) bigL
      (singleWrites env buf w addr bigL s k).2 = _ :=
    modbusWriteLanded_of_ok hw hw8 (Nat.le_refl 1) (by omega)
  rw [singleWrites, hone, modbusWriteLoop, modbusWriteLoop]
  rw [WriteLoop.turn_eq hw hw8]
  rfl

/-- The tables before word `k` of a request, when every word reaches its own
register. -/
def Tables.along (env : Platform) (w addr : Nat) (ws : Nat → UInt16) (tb : Tables) : Nat → Tables
  | 0 => tb
  | k + 1 => (tb.along env w addr ws k).afterWrite env w (addr + k) (ws k)

/-- How many of the first `k` registers of a request are read-only. -/
def Tables.readOnlyBefore (env : Platform) (w addr : Nat) (ws : Nat → UInt16) (tb : Tables) :
    Nat → Nat
  | 0 => 0
  | k + 1 => tb.readOnlyBefore env w addr ws k
      + if (tb.along env w addr ws k).readOnly w (addr + k) then 1 else 0

/-- Wherever a register of the request takes a word, its own word equals the one
as many places back as read-only registers came before it. -/
def CursorsMeet (env : Platform) (w addr n : Nat) (ws : Nat → UInt16) (tb : Tables) : Prop :=
  ∀ k < n, (tb.along env w addr ws k).takes w (addr + k) →
    ws k = ws (k - tb.readOnlyBefore env w addr ws k)

theorem Tables.readOnlyBefore_le {env : Platform} {w addr : Nat} {ws : Nat → UInt16} {tb : Tables}
    (k : Nat) : tb.readOnlyBefore env w addr ws k ≤ k := by
  induction k with
  | zero => exact Nat.le_refl 0
  | succ k ih =>
      unfold Tables.readOnlyBefore
      split <;> omega

section Loops

variable {env : Platform} {buf : Nat → UInt16} {w addr n : Nat} {bigL : Bool} {s : Rtu}

theorem singleWrites_tables (hw : 1 ≤ w) (hw8 : w ≤ 8) : ∀ {k : Nat}, addr + k ≤ 10000 →
    (singleWrites env buf w addr bigL s k).2.map.tables =
      s.map.tables.along env w addr (fun j => orderWord bigL (buf j)) k := by
  intro k
  induction k with
  | zero => intro _; rfl
  | succ k ih =>
      intro hk
      rw [singleWrites_succ hw hw8 hk, writeRegister_tables, ih (by omega)]
      rfl

/-- As long as the cursors have met, the two sides are at the same point. -/
theorem modbusWriteLoop_eq_of_cursorsMeet (hw : 1 ≤ w) (hw8 : w ≤ 8) : ∀ {k : Nat},
    addr + k ≤ 10000 →
    CursorsMeet env w addr k (fun j => orderWord bigL (buf j)) s.map.tables →
    modbusWriteLoop env buf bigL w addr s k =
      { i := addr + k
        p := k - s.map.tables.readOnlyBefore env w addr (fun j => orderWord bigL (buf j)) k
        landed := (singleWrites env buf w addr bigL s k).1
        rtu := (singleWrites env buf w addr bigL s k).2 } := by
  intro k
  induction k with
  | zero => intro _ _; rfl
  | succ k ih =>
      intro hk hmeet
      have hk' := ih (by omega) (fun j hj => hmeet j (by omega))
      have htab : (singleWrites env buf w addr bigL s k).2.map.tables = _ :=
        singleWrites_tables hw hw8 (by omega)
      have hle : s.map.tables.readOnlyBefore env w addr (fun j => orderWord bigL (buf j)) k ≤ k :=
        Tables.readOnlyBefore_le k
      have hword := hmeet k (by omega)
      rw [← htab] at hword
      dsimp only at hword
      rw [modbusWriteLoop, hk', WriteLoop.turn_eq hw hw8, singleWrites_succ hw hw8 hk,
        Tables.readOnlyBefore, ← htab]
      dsimp only
      -- a register that takes no word leaves the value cursor where it is
      by_cases ht : (singleWrites env buf w addr bigL s k).2.map.tables.takes w (addr + k)
      · rw [← hword ht]
        congr 1
        split <;> omega
      · rw [writeRegister_of_not_takes ht, writeRegister_of_not_takes ht,
          landingOf_of_not_takes ht, landingOf_of_not_takes ht]
        congr 1
        split <;> omega

theorem singleWrites_landed_prefix (hw : 1 ≤ w) (hw8 : w ≤ 8) {k : Nat} (hkn : k ≤ n)
    (hlen : addr + n ≤ 10000) :
    (singleWrites env buf w addr bigL s k).1 <+: (singleWrites env buf w addr bigL s n).1 := by
  induction hkn with
  | refl => exact List.prefix_refl _
  | @step m _ ih =>
      rw [singleWrites_succ hw hw8 hlen]
      exact (ih (by omega)).trans (List.prefix_append _ _)

/-- If everything landed in the same places, the cursors met. -/
theorem cursorsMeet_of_landed_eq (hw : 1 ≤ w) (hw8 : w ≤ 8) (hlen : addr + n ≤ 10000)
    (h : (modbusWriteLoop env buf bigL w addr s n).landed =
      (singleWrites env buf w addr bigL s n).1) :
    CursorsMeet env w addr n (fun j => orderWord bigL (buf j)) s.map.tables := by
  intro k
  -- the first register whose word differs is found at the end of a common prefix
  induction k using Nat.strongRecOn with
  | ind k ih =>
      intro hk ht
      have hmeet : CursorsMeet env w addr k (fun j => orderWord bigL (buf j)) s.map.tables :=
        fun j hj => ih j hj (by omega)
      have hloop : modbusWriteLoop env buf bigL w addr s k = _ :=
        modbusWriteLoop_eq_of_cursorsMeet hw hw8 (by omega) hmeet
      rw [← singleWrites_tables hw hw8 (by omega)] at ht
      have hb : (modbusWriteLoop env buf bigL w addr s (k + 1)).landed <+:
          (singleWrites env buf w addr bigL s n).1 :=
        h ▸ modbusWriteLoop_landed_prefix (by omega)
      have hs : (singleWrites env buf w addr bigL s (k + 1)).1 <+:
          (singleWrites env buf w addr bigL s n).1 :=
        singleWrites_landed_prefix hw hw8 (by omega) hlen
      rw [modbusWriteLoop, hloop, WriteLoop.turn_eq hw hw8] at hb
      rw [singleWrites_succ hw hw8 (by omega)] at hs
      dsimp only at hb hs
      have hlength : ∀ u, (landingOf env w (addr + k) u
          (singleWrites env buf w addr bigL s k).2).length = (landingOf env w (addr + k)
            (orderWord bigL (buf k)) (singleWrites env buf w addr bigL s k).2).length :=
        fun _ => landingOf_length
      have heq := (List.prefix_of_prefix_length_le hb hs (by simp [hlength])).eq_of_length
        (by simp [hlength])
      exact (landingOf_inj ht (List.append_cancel_left heq)).symm

end Loops

/-- **Batch against single writes.** The batch lands every word where its own
request would, with the same function-mapped writes and the same unit at the end,
exactly when the cursors meet. -/
theorem batchWrite_eq_singleWrites_iff {env : Platform} {buf : Nat → UInt16} {w addr n : Nat}
    {bigL : Bool} {s : Rtu} (hw : 1 ≤ w) (hw8 : w ≤ 8) (hn : 1 ≤ n) (hlen : addr + n ≤ 10000) :
    (modbusWriteLanded env buf n w addr bigL s).2 = singleWrites env buf w addr bigL s n ↔
      CursorsMeet env w addr n (fun k => orderWord bigL (buf k)) s.map.tables := by
  rw [modbusWriteLanded_of_ok hw hw8 hn hlen]
  constructor
  · intro h
    exact cursorsMeet_of_landed_eq hw hw8 hlen (congrArg Prod.fst h)
  · intro h
    rw [modbusWriteLoop_eq_of_cursorsMeet hw hw8 hlen h]

/-! ### A read-only register before an unmapped one -/

/-- Every mapped register leads into its well's block, and a cell of the shared
flash into that. -/
def MapT.CellsInside (m : MapT) : Prop :=
  ∀ w i, 1 ≤ w → w ≤ maxWellNum → i < maxRegisterNum → m.ramYMapType (yBase w + i) = .ram →
    m.cellOf w i < m.xMax ∧
      (m.ramXMapType (m.xBase w + m.cellOf w i) = .flash1 → m.cellOf w i < flash1MaxLen)

/-- A map of one row: register 0 of well 1 leads to the read-only cell 20. -/
def oneReadOnly : MapT :=
  loadCell 0 0 false false (emptyMap 300 (fun _ => 0) fun _ => 0) ⟨20, 0, 5, ⟨.null, .null, .ro⟩⟩

theorem oneReadOnly_cellsInside : oneReadOnly.CellsInside := by
  intro w i _ _ _ h
  -- only the row's own register is mapped
  have hreg : yBase w + i = 0 := by
    by_contra hne
    have hnull : oneReadOnly.ramYMapType (yBase w + i) = .null := Function.update_of_ne hne _ _
    rw [hnull] at h
    cases h
  have hcell : oneReadOnly.cellOf w i = 20 := by
    unfold MapT.cellOf
    rw [hreg]
    rfl
  rw [hcell]
  exact ⟨by decide, fun _ => by decide⟩

/-- The words 7 and 9 at registers 0 and 1: register 1 gets the word of the
read-only register 0. -/
theorem not_batchWrite_eq_singleWrites : ¬ ∀ (env : Platform) (s : Rtu) (buf : Nat → UInt16)
    (w addr n : Nat) (bigL : Bool), (∀ k, env.msync k = true) → s.map.CellsInside → 1 ≤ w →
    w ≤ 8 → 1 ≤ n → addr + n ≤ 10000 →
    (modbusWriteLanded env buf n w addr bigL s).2 = singleWrites env buf w addr bigL s n := by
  intro h
  have heq := h (.bare fun _ => none) (.start oneReadOnly) (fun k => if k = 0 then 7 else 9) 1 0 2
    false (fun _ => rfl) oneReadOnly_cellsInside (by decide) (by decide) (by decide) (by decide)
  have hword : (7 : UInt16) = 9 := congrArg (fun r => r.2.map.ramY 1) heq
  exact absurd hword (by decide)

/-- Register 1 of well 1 leads to the read-only cell 20 and register 3 to the
read-write flash cell 21; the others are unmapped. -/
def mixedRegisters : MapT :=
  [⟨20, 1, 5, ⟨.null, .null, .ro⟩⟩, ⟨21, 3, 6, ⟨.flash2, .null, .rw⟩⟩].foldl
    (loadCell 0 0 false false) (emptyMap 300 (fun _ => 0) fun _ => 0)

/-- The words 4, 9, 9, 9 at the registers 0 to 3: the read-only register 1 drops
its own, and what it shifts is equal. -/
theorem batchWrite_eq_singleWrites_mixed :
    (modbusWriteLanded (.bare fun _ => none) (fun k => if k = 0 then 4 else 9) (4 : Nat) (1 : Nat)
      (0 : Nat) false (.start mixedRegisters)).2 =
      singleWrites (.bare fun _ => none) (fun k => if k = 0 then 4 else 9) 1 0 false
        (.start mixedRegisters) 4 :=
  (batchWrite_eq_singleWrites_iff (by decide) (by decide) (by decide) (by decide)).2
    (by
      intro k hk _
      obtain rfl | rfl | rfl | rfl : k = 0 ∨ k = 1 ∨ k = 2 ∨ k = 3 := by omega
      · rfl
      all_goals decide)

end RtuA118
