import RtuA118.Map.Snapshot

/-!
# RtuA118.Map.Frame

The **footprint** of a step of the map's life: the cells it sets (`MapEvent.Sets`)
and the registers it sets (`MapEvent.Maps`). Outside its footprint a step changes
nothing, so a run none of whose steps touches a window (`Misses`) leaves what an
external read sees through it (`MappedRam.run`).
-/

namespace RtuA118

open Run (Steps guarded)

/-! ### Footprints -/

namespace MapEvent

/-- The step sets cell `b`, its word or its kind. -/
def Sets (m : MapT) (b : Nat) : MapEvent → Prop
  | .powerUp _ _ _ => True
  | .load xb _ _ _ c => b = xb + c.x.toNat
  | .copyWell _ k => k * m.xMax ≤ b ∧ b < k * m.xMax + flash1MaxLen
  | .ramWord a _ => b = a
  | .store w i _ => b = m.xBase w + i
  | .sweep a len _ => a ≤ b ∧ b < a + len
  | .typeCell _ _ | .regWord _ _ _ | .elsewhere => False

/-- The step sets register `r`, its word or its kind. -/
def Maps (r : Nat) : MapEvent → Prop
  | .powerUp _ _ _ => True
  | .load _ yb _ _ c => r = yb + c.y.toNat
  | .copyWell _ k => k * maxRegisterNum ≤ r ∧ r < k * maxRegisterNum + maxRegisterNum
  | .regWord w i _ => r = yBase w + i
  | .typeCell _ _ | .ramWord _ _ | .store _ _ _ | .sweep _ _ _ | .elsewhere => False

end MapEvent

section Step

variable {env : Platform} {s s' : Rtu} {e : MapEvent}

/-- A cell outside the footprint. -/
theorem EventStep.cell {b : Nat} (h : EventStep env s e s') (hb : ¬ e.Sets s.map b) :
    s'.map.ramX b = s.map.ramX b ∧ s'.map.ramXMapType b = s.map.ramXMapType b := by
  cases h with
  | powerUp => exact absurd trivial hb
  | load xb yb b1 b2 c => exact ⟨Function.update_of_ne hb _ _, Function.update_of_ne hb _ _⟩
  | copyWell b2 k => exact ⟨if_neg hb, if_neg hb⟩
  | typeCell => exact ⟨rfl, rfl⟩
  | ramWord a v => exact ⟨Function.update_of_ne hb _ _, rfl⟩
  | store v hw hw8 hi h0 =>
      exact ⟨writeCell_ramX_of_ne h0 hb, congrFun (ramXMapType_eq_of_tables
        (writeCell_tables_of_ne h0)) b⟩
  | regWord => exact ⟨rfl, rfl⟩
  | sweep a len v => exact ⟨Store.fill_of_not_mem hb, rfl⟩
  | elsewhere hmap => rw [hmap]; exact ⟨rfl, rfl⟩

/-- A register outside the footprint. -/
theorem EventStep.register {r : Nat} (h : EventStep env s e s') (hr : ¬ e.Maps r) :
    s'.map.ramY r = s.map.ramY r ∧ s'.map.ramYMapType r = s.map.ramYMapType r := by
  cases h with
  | powerUp => exact absurd trivial hr
  | load xb yb b1 b2 c => exact ⟨Function.update_of_ne hr _ _, Function.update_of_ne hr _ _⟩
  | copyWell b2 k => exact ⟨if_neg hr, if_neg hr⟩
  | typeCell => exact ⟨rfl, rfl⟩
  | ramWord => exact ⟨rfl, rfl⟩
  | store v hw hw8 hi h0 =>
      have ht : (writeCell env _ _ v s).2.map.tables = s.map.tables := writeCell_tables_of_ne h0
      exact ⟨congrArg (fun t => t.ramY r) ht, congrArg (fun t => t.ramYMapType r) ht⟩
  | regWord w i v => exact ⟨Function.update_of_ne hr _ _, rfl⟩
  | sweep => exact ⟨rfl, rfl⟩
  | elsewhere hmap => rw [hmap]; exact ⟨rfl, rfl⟩

/-- Only power-up sets the size of a block. -/
theorem EventStep.xMax {b : Nat} (h : EventStep env s e s') (hb : ¬ e.Sets s.map b) :
    s'.map.xMax = s.map.xMax := by
  cases h with
  | powerUp => exact absurd trivial hb
  | store v hw hw8 hi h0 => exact congrArg Tables.xMax (writeCell_tables_of_ne h0)
  | elsewhere hmap => rw [hmap]
  | _ => rfl

end Step

/-! ### Runs past a window -/

/-- The step touches none of `n` cells from `cb` on and none of `n` registers from
`rb` on. -/
def Misses (cb rb n : Nat) (s : Rtu) (e : MapEvent) : Prop :=
  ∀ k < n, ¬ e.Sets s.map (cb + k) ∧ ¬ e.Maps (rb + k)

/-- Any number of steps that touch nothing of the window. -/
def StepsPast (env : Platform) (cb rb n : Nat) : Rtu → Rtu → Prop :=
  Steps (guarded (Misses cb rb n) (EventStep env))

/-- The window is as before. -/
structure SameWindow (cb rb n : Nat) (m m' : MapT) : Prop where
  xMax : m'.xMax = m.xMax
  ramX : ∀ k < n, m'.ramX (cb + k) = m.ramX (cb + k)
  ramXMapType : ∀ k < n, m'.ramXMapType (cb + k) = m.ramXMapType (cb + k)
  ramY : ∀ k < n, m'.ramY (rb + k) = m.ramY (rb + k)
  ramYMapType : ∀ k < n, m'.ramYMapType (rb + k) = m.ramYMapType (rb + k)

theorem StepsPast.same {env : Platform} {cb rb n : Nat} {s s' : Rtu}
    (h : StepsPast env cb rb n s s') (hn : 0 < n) : SameWindow cb rb n s.map s'.map := by
  induction h with
  | refl => exact ⟨rfl, fun _ _ => rfl, fun _ _ => rfl, fun _ _ => rfl, fun _ _ => rfl⟩
  | tail _ hstep ih =>
      obtain ⟨e, hmiss, hstep⟩ := hstep
      refine ⟨(hstep.xMax (hmiss 0 hn).1).trans ih.xMax, fun k hk => ?_, fun k hk => ?_,
        fun k hk => ?_, fun k hk => ?_⟩
      · exact (hstep.cell (hmiss k hk).1).1.trans (ih.ramX k hk)
      · exact (hstep.cell (hmiss k hk).1).2.trans (ih.ramXMapType k hk)
      · exact (hstep.register (hmiss k hk).2).1.trans (ih.ramY k hk)
      · exact (hstep.register (hmiss k hk).2).2.trans (ih.ramYMapType k hk)

/-- A block store away from the window is a run past it. -/
theorem writeCells_past {env : Platform} {cb rb n w : Nat} (hw : 1 ≤ w) (hw8 : w ≤ maxWellNum) :
    ∀ {vs : List UInt16} {i : Nat} {s : Rtu}, 1 ≤ i → i + vs.length ≤ s.map.xMax →
      (∀ k < n, ¬ (s.map.xBase w + i ≤ cb + k ∧ cb + k < s.map.xBase w + (i + vs.length))) →
      StepsPast env cb rb n s (writeCells env w i vs s).2 := by
  intro vs
  induction vs with
  | nil => intro i s _ _ _; exact .refl
  | cons v vs ih =>
      intro i s hi hlen hout
      rw [List.length_cons] at hlen hout
      have hne : i ≠ mapChangeWellType := Nat.ne_of_gt hi
      have ht : (writeCell env w i v s).2.map.tables = s.map.tables :=
        writeCell_tables_of_ne fun _ => hne
      have hx := xBase_eq_of_tables ht w
      have hxmax : (writeCell env w i v s).2.map.xMax = s.map.xMax := congrArg Tables.xMax ht
      have hcell : StepsPast env cb rb n s (writeCell env w i v s).2 := by
        refine Steps.one (a := .store w i v) ⟨fun k hk => ⟨fun hset => hout k hk ?_, fun h => h⟩,
          .store s v hw hw8 (by omega) fun _ => hne⟩
        have hset : cb + k = s.map.xBase w + i := hset
        omega
      rw [writeCells_cons]
      split
      · refine hcell.trans (ih (Nat.le_succ_of_le hi) (by omega) fun k hk => ?_)
        have h := hout k hk
        omega
      · exact hcell

/-! ### Reading through a window -/

/-- `n` registers of well `w` from `r` on lead to `n` RAM cells from `a` on. -/
structure MappedRam (m : MapT) (w r a n : Nat) : Prop where
  inBlock : a + n ≤ m.xMax
  inRange : r + n ≤ maxRegisterNum
  ram : ∀ k < n, m.ramXMapType (m.xBase w + (a + k)) = .ram
  mapped : ∀ k < n, m.ramYMapType (yBase w + (r + k)) = .ram
  cell : ∀ k < n, m.cellOf w (r + k) = a + k

theorem readRegister_of_mapped {env : Platform} {s : Rtu} {rc : UInt16} {w r a : Nat} (hw : 1 ≤ w)
    (hw8 : w ≤ maxWellNum) (h : MappedRam s.map w r a 1) :
    readRegister env s rc w r = s.map.ramX (s.map.xBase w + a) := by
  have hy := h.mapped 0 Nat.one_pos
  have hc := h.cell 0 Nat.one_pos
  have ht := h.ram 0 Nat.one_pos
  have hlt := h.inBlock
  unfold MapT.cellOf at hc
  simp only [Nat.add_zero] at hy hc ht
  unfold readRegister
  dsimp only
  rw [hy, hc]
  dsimp only
  rw [zigbeeReadRegisters_one hw hw8, if_pos (Nat.lt_of_succ_le hlt)]
  unfold readCell
  rw [ht]

/-- The mapping tables alone decide. -/
theorem MappedRam.of_tables {m m' : MapT} {w r a n : Nat} (h : MappedRam m w r a n)
    (ht : m'.tables = m.tables) : MappedRam m' w r a n := by
  have hx : m'.xMax = m.xMax := congrArg Tables.xMax ht
  have htype := ramXMapType_eq_of_tables ht
  have hy : m'.ramY = m.ramY := congrArg Tables.ramY ht
  have hytype : m'.ramYMapType = m.ramYMapType := congrArg Tables.ramYMapType ht
  obtain ⟨hblock, hrange, hram, hmapped, hcell⟩ := h
  refine ⟨by omega, hrange, fun k hk => ?_, fun k hk => ?_, fun k hk => ?_⟩
  · rw [htype, xBase_eq_of_tables ht]
    exact hram k hk
  · rw [hytype]
    exact hmapped k hk
  · unfold MapT.cellOf
    rw [hy]
    exact hcell k hk

theorem MappedRam.tail {m : MapT} {w r a n : Nat} (h : MappedRam m w r a (n + 1)) :
    MappedRam m w (r + 1) (a + 1) n := by
  obtain ⟨hblock, hrange, hram, hmapped, hcell⟩ := h
  refine ⟨by omega, by omega, fun k hk => ?_, fun k hk => ?_, fun k hk => ?_⟩
  · rw [show a + 1 + k = a + (k + 1) by omega]
    exact hram _ (Nat.succ_lt_succ hk)
  · rw [show r + 1 + k = r + (k + 1) by omega]
    exact hmapped _ (Nat.succ_lt_succ hk)
  · rw [show r + 1 + k = r + (k + 1) by omega, show a + 1 + k = a + (k + 1) by omega]
    exact hcell _ (Nat.succ_lt_succ hk)

theorem MappedRam.head {m : MapT} {w r a n : Nat} (h : MappedRam m w r a (n + 1)) :
    MappedRam m w r a 1 :=
  ⟨by have := h.inBlock; omega, by have := h.inRange; omega, fun k hk => h.ram k (by omega),
    fun k hk => h.mapped k (by omega), fun k hk => h.cell k (by omega)⟩

theorem modbusReadLoop_of_mapped {env : Platform} {s : Rtu} {w : Nat} {bigL : Bool} (hw : 1 ≤ w)
    (hw8 : w ≤ maxWellNum) : ∀ {n r a : Nat} {rc : UInt16}, MappedRam s.map w r a n →
      modbusReadLoop env s w bigL n r rc
        = (List.range n).map fun k => orderWord bigL (s.map.ramX (s.map.xBase w + (a + k))) := by
  intro n
  induction n with
  | zero => intro r a rc _; rfl
  | succ n ih =>
      intro r a rc h
      rw [modbusReadLoop, readRegister_of_mapped hw hw8 h.head, ih h.tail, List.range_succ_eq_map,
        List.map_cons, List.map_map]
      refine congrArg (_ :: ·) (List.map_congr_left fun k _ => ?_)
      rw [Function.comp_apply, show a + 1 + k = a + (k + 1) by omega]

/-- An external read through the window has its words. -/
theorem mapModbusReadRegisters_of_mapped {env : Platform} {s : Rtu} {w r a n : Nat} {bigL : Bool}
    (hw : 1 ≤ w) (hw8 : w ≤ maxWellNum) (hn : 0 < n) (h : MappedRam s.map w r a n) :
    mapModbusReadRegisters env s n w r bigL
      = some ((List.range n).map fun k =>
          orderWord bigL (s.map.ramX (s.map.xBase w + (a + k)))) := by
  have hrange := h.inRange
  unfold maxWellNum at hw8
  unfold maxRegisterNum at hrange
  unfold mapModbusReadRegisters
  rw [if_pos (registerArgsOk_iff.2 (by omega)), Int.toNat_natCast, Int.toNat_natCast,
    Int.toNat_natCast, modbusReadLoop_of_mapped hw hw8 h]

/-- **Past a window, its words stay readable.** -/
theorem MappedRam.run {env : Platform} {s s' : Rtu} {w r a n : Nat} (h : MappedRam s.map w r a n)
    (hn : 0 < n) (hrun : StepsPast env (s.map.xBase w + a) (yBase w + r) n s s') :
    MappedRam s'.map w r a n ∧
      ∀ k < n, s'.map.ramX (s'.map.xBase w + (a + k)) = s.map.ramX (s.map.xBase w + (a + k)) := by
  have hsame := hrun.same hn
  have hx : s'.map.xBase w = s.map.xBase w := congrArg (· * (w - 1)) hsame.xMax
  refine ⟨⟨?_, h.inRange, fun k hk => ?_, fun k hk => ?_, fun k hk => ?_⟩, fun k hk => ?_⟩
  · rw [hsame.xMax]
    exact h.inBlock
  · rw [hx, ← Nat.add_assoc, hsame.ramXMapType k hk, Nat.add_assoc]
    exact h.ram k hk
  · rw [← Nat.add_assoc, hsame.ramYMapType k hk, Nat.add_assoc]
    exact h.mapped k hk
  · have hy := h.cell k hk
    unfold MapT.cellOf at hy ⊢
    rw [← Nat.add_assoc, hsame.ramY k hk, Nat.add_assoc]
    exact hy
  · rw [hx, ← Nat.add_assoc, hsame.ramX k hk]

end RtuA118
