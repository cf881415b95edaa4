import RtuA118.Map.StoreEffect

/-!
# RtuA118.Map.FailedStore

What an internal write leaves behind when it returns `-1`.

The loop stops at the first word whose `msync` fails (`Outlook.StopsAt`), with that word
and the words before it stored. Up to there every cell reads the word it was given, if its
reading shows what is stored in it (`ReadsStored`); the clock is the one thing set that
other cells show. So the readings are as before exactly when the words are there already
and the clock shows the same, unless the batch has changed the well's type first.
-/

namespace RtuA118

/-! ### Where a batch stops -/

namespace Outlook

/-- The outlook after the first `k` words of a batch. -/
def afterStores (env : Platform) (w addr : Nat) (buf : Nat → UInt16) (o : Outlook) : Nat → Outlook
  | 0 => o
  | k + 1 => (o.afterStores env w addr buf k).afterStore env w (addr + k) (buf k)

/-- Word `k` is the first of the batch whose store fails. -/
def StopsAt (env : Platform) (w addr : Nat) (buf : Nat → UInt16) (o : Outlook) (k : Nat) : Prop :=
  (∀ j < k, ¬ (o.afterStores env w addr buf j).Fails env w (addr + j)) ∧
    (o.afterStores env w addr buf k).Fails env w (addr + k)

instance (env : Platform) (w addr : Nat) (buf : Nat → UInt16) (o : Outlook) (k : Nat) :
    Decidable (o.StopsAt env w addr buf k) := inferInstanceAs (Decidable (_ ∧ _))

end Outlook

/-- The unit after the first `k` words of a batch, none of which stops it. -/
def storedCells (env : Platform) (w addr : Nat) (buf : Nat → UInt16) (s : Rtu) : Nat → Rtu
  | 0 => s
  | k + 1 => (writeCell env w (addr + k) (buf k) (storedCells env w addr buf s k)).2

section Batch

variable {env : Platform} {w addr : Nat} {buf : Nat → UInt16} {s : Rtu}

theorem storedCells_outlook (hw : 1 ≤ w) (hw8 : w ≤ maxWellNum) (k : Nat) :
    (storedCells env w addr buf s k).outlook = s.outlook.afterStores env w addr buf k := by
  induction k with
  | zero => rfl
  | succ k ih => rw [storedCells, writeCell_outlook hw hw8, ih, Outlook.afterStores]

/-- A batch goes on with its second part where the first part comes to its end. -/
theorem writeCells_append {vs us : List UInt16} {i : Nat} :
    writeCells env w i (vs ++ us) s =
      if (writeCells env w i vs s).1 = 0 then
        writeCells env w (i + vs.length) us (writeCells env w i vs s).2
      else writeCells env w i vs s := by
  induction vs generalizing i s with
  | nil => simp [writeCells]
  | cons v vs ih =>
      rw [List.cons_append, writeCells_cons, writeCells_cons, List.length_cons]
      split
      · rw [ih, Nat.add_assoc, Nat.add_comm 1]
      · rfl

/-- The write loop stores all words, or all up to the one it stops at. -/
theorem writeCells_ends (env : Platform) (addr : Nat) (buf : Nat → UInt16) (s : Rtu) (hw : 1 ≤ w)
    (hw8 : w ≤ maxWellNum) (n : Nat) :
    (∀ k < n, ¬ (s.outlook.afterStores env w addr buf k).Fails env w (addr + k)) ∧
        writeCells env w addr ((List.range n).map buf) s = (0, storedCells env w addr buf s n) ∨
      ∃ k < n, s.outlook.StopsAt env w addr buf k ∧
        writeCells env w addr ((List.range n).map buf) s
          = (-1, storedCells env w addr buf s (k + 1)) := by
  induction n with
  | zero => exact .inl ⟨by simp, rfl⟩
  | succ n ih =>
      rw [List.range_succ, List.map_append, writeCells_append]
      obtain ⟨hgo, h⟩ | ⟨k, hk, hstop, h⟩ := ih
      · rw [h, if_pos rfl, List.map_cons, List.map_nil, writeCells_cons, List.length_map,
          List.length_range]
        have hout : (storedCells env w addr buf s n).outlook = _ := storedCells_outlook hw hw8 n
        by_cases hf : (s.outlook.afterStores env w addr buf n).Fails env w (addr + n)
        · refine .inr ⟨n, Nat.lt_succ_self n, ⟨hgo, hf⟩, ?_⟩
          rw [← hout, ← writeCell_fst_iff] at hf
          rw [hf]
          rfl
        · refine .inl ⟨fun k hk => ?_, ?_⟩
          · rcases Nat.lt_succ_iff_lt_or_eq.mp hk with hk | rfl
            · exact hgo k hk
            · exact hf
          · rw [← hout, ← writeCell_fst_iff (v := buf n), Bool.not_eq_false] at hf
            rw [hf]
            rfl
      · rw [h, if_neg (by simp)]
        exact .inr ⟨k, Nat.lt_succ_of_lt hk, hstop, rfl⟩

theorem Outlook.StopsAt.unique {o : Outlook} {k l : Nat} (hk : o.StopsAt env w addr buf k)
    (hl : o.StopsAt env w addr buf l) : k = l := by
  rcases Nat.lt_trichotomy k l with h | h | h
  · exact absurd hk.2 (hl.1 k h)
  · exact h
  · exact absurd hl.2 (hk.1 l h)

/-- Where the batch stops, it returns `-1` with the words up to there stored. -/
theorem writeCells_of_stopsAt {n k : Nat} (hw : 1 ≤ w) (hw8 : w ≤ maxWellNum) (hk : k < n)
    (h : s.outlook.StopsAt env w addr buf k) :
    writeCells env w addr ((List.range n).map buf) s
      = (-1, storedCells env w addr buf s (k + 1)) := by
  obtain ⟨hgo, -⟩ | ⟨l, -, hl, heq⟩ := writeCells_ends env addr buf s hw hw8 n
  · exact absurd h.2 (hgo k hk)
  · rw [h.unique hl, heq]

end Batch

/-! ### Readings before and after -/

/-- Every single read gives the same, of a cell and of a register. -/
structure SameReadings (env : Platform) (s s' : Rtu) : Prop where
  cell : ∀ (buf : Nat → UInt16) (w i : Int),
    zigbeeReadRegisters env s' buf 1 w i = zigbeeReadRegisters env s buf 1 w i
  register : ∀ (w y : Int) (bigL : Bool),
    mapModbusReadRegisters env s' 1 w y bigL = mapModbusReadRegisters env s 1 w y bigL

/-- The maps read the same but for the clock. -/
structure MapT.ShowsSame (m m' : MapT) : Prop where
  tables : m'.tables = m.tables
  flash1 : m'.flash1 = m.flash1
  flash2 : m'.flash2 = m.flash2
  ramX : ∀ w i, 1 ≤ w → i < m.xMax → SeesRam (m.ramXMapType (m.xBase w + i)) i →
    m'.ramX (m.xBase w + i) = m.ramX (m.xBase w + i)

namespace MapT.ShowsSame

theorem refl (m : MapT) : m.ShowsSame m := ⟨rfl, rfl, rfl, fun _ _ _ _ _ => rfl⟩

theorem trans {m m' m'' : MapT} (h : m.ShowsSame m') (h' : m'.ShowsSame m'') :
    m.ShowsSame m'' := by
  refine ⟨h'.tables.trans h.tables, h'.flash1.trans h.flash1, h'.flash2.trans h.flash2,
    fun w i hw hi hsees => ?_⟩
  have hx := xBase_eq_of_tables h.tables w
  have hnext := h'.ramX w i hw (by rwa [show m'.xMax = m.xMax from congrArg Tables.xMax h.tables])
    (by rwa [hx, ramXMapType_eq_of_tables h.tables])
  rw [hx] at hnext
  exact hnext.trans (h.ramX w i hw hi hsees)

end MapT.ShowsSame

section Readings

variable {env : Platform} {w i : Nat} {v cur : UInt16} {s s' : Rtu}

/-- The clock reads the same. -/
def SameClock (env : Platform) (s s' : Rtu) : Prop :=
  ∀ w i, 1 ≤ w → w ≤ maxWellNum → i < s.map.xMax →
    s.map.ramXMapType (s.map.xBase w + i) = .sys → ClockIndex i →
    mapGettime env s' i = mapGettime env s i

/-- The function-mapped readings other than the clock's look at the second flash alone. -/
theorem mapMapFunRead_of_shown (hx : s'.map.xMax = s.map.xMax) (h2 : s'.map.flash2 = s.map.flash2)
    (htime : ClockIndex i → mapGettime env s' i = mapGettime env s i) :
    mapMapFunRead env s' cur w i = mapMapFunRead env s cur w i := by
  unfold mapMapFunRead MapT.xBase
  rw [hx, h2]
  by_cases hc : mapGetTimeHour ≤ i ∧ i ≤ mapGetTimeDay
  · rw [htime hc]
  · rw [if_neg hc, if_neg hc]

theorem MapT.ShowsSame.readCell (h : s.map.ShowsSame s'.map) (hw : 1 ≤ w) (hi : i < s.map.xMax)
    (htime : s.map.ramXMapType (s.map.xBase w + i) = .sys → ClockIndex i →
      mapGettime env s' i = mapGettime env s i) :
    readCell env s' cur w i = readCell env s cur w i := by
  have hx := xBase_eq_of_tables h.tables w
  unfold RtuA118.readCell
  rw [hx, ramXMapType_eq_of_tables h.tables, h.flash1, h.flash2]
  have hram := h.ramX w i hw hi
  cases ht : s.map.ramXMapType (s.map.xBase w + i) with
  | null => exact hram (.inl ht)
  | ram => exact hram (.inr (.inl ht))
  | sys =>
      dsimp only
      rw [mapMapFunRead_of_shown (congrArg Tables.xMax h.tables) h.flash2 (htime ht)]
      cases hf : mapMapFunRead env s cur w i with
      | some u => rfl
      | none => exact hram (.inr (.inr ⟨ht, mapMapFunRead_eq_none_iff.mp hf⟩))
  | _ => rfl

theorem MapT.ShowsSame.sameReadings (h : s.map.ShowsSame s'.map) (hclock : SameClock env s s') :
    SameReadings env s s' := by
  have hx : s'.map.xMax = s.map.xMax := congrArg Tables.xMax h.tables
  have hcell : ∀ (buf : Nat → UInt16) (w i : Int),
      zigbeeReadRegisters env s' buf 1 w i = zigbeeReadRegisters env s buf 1 w i := by
    intro buf w i
    have hargs : cellArgsOk s'.map 1 w i = cellArgsOk s.map 1 w i := by
      unfold cellArgsOk
      rw [hx]
    unfold zigbeeReadRegisters
    rw [hargs]
    split
    · rename_i hok
      obtain ⟨hw8, hw, hi, -, hend⟩ := cellArgsOk_iff.mp hok
      have hread : RtuA118.readCell env s' (buf 0) w.toNat i.toNat = _ :=
        h.readCell (by omega) (by omega) fun ht hc =>
          hclock w.toNat i.toNat (by omega) (by unfold maxWellNum; omega) (by omega) ht hc
      simpa using hread
    · rfl
  refine ⟨hcell, fun w y bigL => ?_⟩
  have hy : s'.map.ramY = s.map.ramY := congrArg Tables.ramY h.tables
  have hyt : s'.map.ramYMapType = s.map.ramYMapType := congrArg Tables.ramYMapType h.tables
  have hreg : ∀ (rc : UInt16) (w i : Nat),
      readRegister env s' rc w i = readRegister env s rc w i := by
    intro rc w i
    unfold readRegister
    rw [hy, hyt]
    simp only [hcell]
  unfold mapModbusReadRegisters
  simp only [Int.toNat_one, modbusReadLoop, hreg]

end Readings

/-! ### One word stored -/

section Word

variable {env : Platform} {w i : Nat} {v cur : UInt16} {s : Rtu}

/-- What reads back reads the word. -/
theorem readCell_writeCell_self (hre : ¬ s.map.Retypes env w i v)
    (h : ReadsStored (s.map.ramXMapType (s.map.xBase w + i)) i) :
    readCell env (writeCell env w i v s).2 cur w i = v := by
  have htab := writeCell_tables_eq hre
  have hx := xBase_eq_of_tables htab
  have hk := ramXMapType_eq_of_tables htab
  obtain h | ht | ⟨ht, hfun⟩ := h
  · rw [readCell_of_seesRam (by rwa [hk, hx]), hx, writeCell_ramX_self hre h]
  · unfold readCell
    rw [hk, hx]
    rcases ht with ht | ht
    · rw [ht]
      dsimp only
      rw [writeCell_flash1_eq hre, if_pos ht, Function.update_self]
    · rw [ht]
      dsimp only
      rw [writeCell_flash2_eq hre, if_pos ht, Function.update_self]
  · rw [readCell_of_funStores (by rwa [hk, hx]) hfun, hx, writeCell_flash2_eq hre,
      if_neg (by simp [ht]), if_pos ⟨ht, hfun⟩, Function.update_self]

/-- A cell that reads back reads the same after another cell of the well is written. -/
theorem readCell_writeCell_of_ne {j : Nat} (hre : ¬ s.map.Retypes env w j v) (hw : 1 ≤ w)
    (hi : i < s.map.xMax) (hj : j < s.map.xMax) (hij : i ≠ j)
    (h : ReadsStored (s.map.ramXMapType (s.map.xBase w + i)) i) :
    readCell env (writeCell env w j v s).2 cur w i = readCell env s cur w i := by
  have htab := writeCell_tables_eq hre
  have hx := xBase_eq_of_tables htab
  have hk := ramXMapType_eq_of_tables htab
  have hflash2 : ∀ u, 1 ≤ u → (writeCell env w j v s).2.map.flash2 (s.map.xBase u + i)
      = s.map.flash2 (s.map.xBase u + i) := by
    intro u hu
    have hne : ∀ u', 1 ≤ u' → s.map.xBase u + i ≠ s.map.xBase u' + j := fun u' hu' heq =>
      hij ((MapT.xBase_add_inj hu hu' hi hj).1 heq).2
    rw [writeCell_flash2_eq hre]
    split
    · exact Function.update_of_ne (hne w hw) _ _
    · split
      · exact Function.update_of_ne (hne _ (by unfold flash2Well; split <;> omega)) _ _
      · rfl
  -- a cell is read from RAM, from its flash, or by a function from the second flash
  obtain h | ht | ⟨ht, hfun⟩ := h
  · rw [readCell_of_seesRam (by rwa [hk, hx]), readCell_of_seesRam h, hx,
      writeCell_ramX_ne hre (by omega)]
  · unfold readCell
    rw [hk, hx]
    rcases ht with ht | ht
    · rw [ht]
      dsimp only
      rw [writeCell_flash1_eq hre]
      split
      · exact Function.update_of_ne hij _ _
      · rfl
    · rw [ht]
      exact hflash2 w hw
  · rw [readCell_of_funStores (by rwa [hk, hx]) hfun, readCell_of_funStores ht hfun, hx]
    exact hflash2 _ (by unfold flash2Well; split <;> omega)

/-- A word that is there already, where its reading shows, leaves all readings but the
clock's. -/
theorem writeCell_showsSame (hre : ¬ s.map.Retypes env w i v) (hw : 1 ≤ w) (hi : i < s.map.xMax)
    (h : ReadsStored (s.map.ramXMapType (s.map.xBase w + i)) i → readCell env s 0 w i = v) :
    s.map.ShowsSame (writeCell env w i v s).2.map := by
  refine ⟨writeCell_tables_eq hre, ?_, ?_, fun u j hu hj hsees => ?_⟩
  · rw [writeCell_flash1_eq hre]
    split
    · rename_i ht
      have hv := h (.inr (.inl (.inl ht)))
      rw [readCell, ht] at hv
      exact Function.update_eq_self_iff.mpr hv.symm
    · rfl
  · rw [writeCell_flash2_eq hre]
    split
    · rename_i ht
      have hv := h (.inr (.inl (.inr ht)))
      rw [readCell, ht] at hv
      exact Function.update_eq_self_iff.mpr hv.symm
    · split
      · rename_i ht
        have hv := h (.inr (.inr ht))
        rw [readCell_of_funStores ht.1 ht.2] at hv
        exact Function.update_eq_self_iff.mpr hv.symm
      · rfl
  · by_cases haddr : s.map.xBase u + j = s.map.xBase w + i
    · obtain ⟨rfl, rfl⟩ := (MapT.xBase_add_inj hu hw hj hi).1 haddr
      have hv := h (.inl hsees)
      rw [readCell_of_seesRam hsees] at hv
      rw [writeCell_ramX_self hre hsees, hv]
    · exact writeCell_ramX_ne hre haddr

end Word

/-! ### A batch -/

/-- The unit whose clock the first `k` words of a batch have set, and nothing else. -/
def clockAfter (env : Platform) (w addr : Nat) (buf : Nat → UInt16) (s : Rtu) : Nat → Rtu
  | 0 => s
  | k + 1 =>
    let t := clockAfter env w addr buf s k
    if s.map.ramXMapType (s.map.xBase w + (addr + k)) = .sys ∧ ClockIndex (addr + k) then
      mapSettime env (addr + k) (buf k) t
    else t

section Batch

variable {env : Platform} {w addr : Nat} {buf : Nat → UInt16} {s : Rtu}

/-- Only the first word of a batch can change the type. -/
theorem not_retypes_of_tables {m : MapT} {k : Nat} (h : m.tables = s.map.tables)
    (hre : ¬ s.map.Retypes env w addr (buf 0)) : ¬ m.Retypes env w (addr + k) (buf k) := by
  rintro ⟨h0, ht, hp⟩
  obtain ⟨rfl, rfl⟩ : addr = 0 ∧ k = 0 := by
    unfold mapChangeWellType at h0
    omega
  rw [ramXMapType_eq_of_tables h, xBase_eq_of_tables h] at ht
  exact hre ⟨h0, ht, hp⟩

theorem storedCells_tables (hre : ¬ s.map.Retypes env w addr (buf 0)) (k : Nat) :
    (storedCells env w addr buf s k).map.tables = s.map.tables := by
  induction k with
  | zero => rfl
  | succ k ih => exact (writeCell_tables_eq (not_retypes_of_tables ih hre)).trans ih

theorem mapSettime_time_congr {i : Nat} {v : UInt16} {t t' : Rtu} (h : t.time = t'.time) :
    (mapSettime env i v t).time = (mapSettime env i v t').time := by
  unfold mapSettime
  rw [h]

theorem storedCells_time (hre : ¬ s.map.Retypes env w addr (buf 0)) (k : Nat) :
    (storedCells env w addr buf s k).time = (clockAfter env w addr buf s k).time := by
  induction k with
  | zero => rfl
  | succ k ih =>
      have htab := storedCells_tables hre k
      rw [storedCells, writeCell_time, ramXMapType_eq_of_tables htab, xBase_eq_of_tables htab,
        clockAfter]
      split
      · exact mapSettime_time_congr ih
      · exact ih

/-- Every word stored reads back. -/
theorem readCell_storedCells (hre : ¬ s.map.Retypes env w addr (buf 0)) (hw : 1 ≤ w) {n : Nat}
    (hend : addr + n ≤ s.map.xMax) {j : Nat} (hj : j < n)
    (h : ReadsStored (s.map.ramXMapType (s.map.xBase w + (addr + j))) (addr + j)) :
    readCell env (storedCells env w addr buf s n) 0 w (addr + j) = buf j := by
  induction n with
  | zero => exact absurd hj (Nat.not_lt_zero j)
  | succ n ih =>
      have htab := storedCells_tables hre n
      have hre' := not_retypes_of_tables (k := n) htab hre
      have hmax : (storedCells env w addr buf s n).map.xMax = s.map.xMax :=
        congrArg Tables.xMax htab
      have h' : ReadsStored ((storedCells env w addr buf s n).map.ramXMapType
          ((storedCells env w addr buf s n).map.xBase w + (addr + j))) (addr + j) := by
        rwa [ramXMapType_eq_of_tables htab, xBase_eq_of_tables htab]
      rw [storedCells]
      rcases Nat.lt_succ_iff_lt_or_eq.mp hj with hlt | rfl
      · rw [readCell_writeCell_of_ne hre' hw (by omega) (by omega) (by omega) h']
        exact ih (by omega) hlt
      · exact readCell_writeCell_self hre' h'

/-- Words that are there already leave all readings but the clock's. -/
theorem storedCells_showsSame (hre : ¬ s.map.Retypes env w addr (buf 0)) (hw : 1 ≤ w) {n : Nat}
    (hend : addr + n ≤ s.map.xMax)
    (h : ∀ j < n, ReadsStored (s.map.ramXMapType (s.map.xBase w + (addr + j))) (addr + j) →
      readCell env s 0 w (addr + j) = buf j) :
    s.map.ShowsSame (storedCells env w addr buf s n).map := by
  induction n with
  | zero => exact .refl _
  | succ n ih =>
      have hsame := ih (by omega) fun j hj => h j (Nat.lt_succ_of_lt hj)
      have hmax : (storedCells env w addr buf s n).map.xMax = s.map.xMax :=
        congrArg Tables.xMax hsame.tables
      refine hsame.trans (writeCell_showsSame (not_retypes_of_tables hsame.tables hre) hw
        (by omega) fun hback => ?_)
      rw [ramXMapType_eq_of_tables hsame.tables, xBase_eq_of_tables hsame.tables] at hback
      rw [hsame.readCell hw (by omega) ?_]
      · exact h n (Nat.lt_succ_self n) hback
      · intro ht hc
        rw [ht] at hback
        exact absurd hc hback.not_clockIndex

end Batch

/-- A batch that returns `-1` leaves every reading as it was. -/
def BatchAtomic (env : Platform) (buf : Nat → UInt16) (len wellNum addr : Int) (s : Rtu) : Prop :=
  (zigbeeWriteRegisters env buf len wellNum addr s).1 = -1 →
    SameReadings env s (zigbeeWriteRegisters env buf len wellNum addr s).2

/-- Where the batch stops: it has changed no type, every word up to there that reads back
is in its cell already, and its clock words set the clock to what it shows. -/
def BatchHeld (env : Platform) (buf : Nat → UInt16) (len wellNum addr : Int) (s : Rtu) : Prop :=
  cellArgsOk s.map len wellNum addr = true → ∀ k < len.toNat,
    s.outlook.StopsAt env wellNum.toNat addr.toNat buf k →
      ¬ s.map.Retypes env wellNum.toNat addr.toNat (buf 0) ∧
      (∀ j ≤ k,
        ReadsStored (s.map.ramXMapType (s.map.xBase wellNum.toNat + (addr.toNat + j)))
          (addr.toNat + j) →
        readCell env s 0 wellNum.toNat (addr.toNat + j) = buf j) ∧
      SameClock env s (clockAfter env wellNum.toNat addr.toNat buf s k)

section Batch

variable {env : Platform} {buf : Nat → UInt16} {s : Rtu}

theorem mapGettime_congr {t t' : Rtu} {i : Nat} (h : t.time = t'.time) :
    mapGettime env t i = mapGettime env t' i := by
  unfold mapGettime
  rw [h]

/-- The word that stops the batch sets no clock. -/
theorem mapGettime_storedCells {w addr k : Nat} (hre : ¬ s.map.Retypes env w addr (buf 0))
    (hk : (s.map.ramXMapType (s.map.xBase w + (addr + k))).IsFlash) (i : Nat) :
    mapGettime env (storedCells env w addr buf s (k + 1)) i
      = mapGettime env (clockAfter env w addr buf s k) i := by
  refine mapGettime_congr ?_
  have hsys : s.map.ramXMapType (s.map.xBase w + (addr + k)) ≠ .sys := by
    rcases hk with hk | hk <;> simp [hk]
  rw [storedCells_time hre, clockAfter, if_neg fun h => hsys h.1]

/-- The kinds a batch meets are those before it. -/
theorem isFlash_of_stopsAt {w addr k : Nat} (hw : 1 ≤ w) (hw8 : w ≤ maxWellNum)
    (hre : ¬ s.map.Retypes env w addr (buf 0)) (h : s.outlook.StopsAt env w addr buf k) :
    (s.map.ramXMapType (s.map.xBase w + (addr + k))).IsFlash := by
  have hflash := h.2.1
  rw [← storedCells_outlook hw hw8] at hflash
  have htab := storedCells_tables (k := k) hre
  rw [show (storedCells env w addr buf s k).outlook.tables = s.map.tables from htab] at hflash
  exact hflash

variable {len wellNum addr : Int}

/-- A batch that returns `-1` past its guard has stopped at a word. -/
theorem zigbeeWriteRegisters_stops (hok : cellArgsOk s.map len wellNum addr = true) {k : Nat}
    (hk : k < len.toNat) (h : s.outlook.StopsAt env wellNum.toNat addr.toNat buf k) :
    zigbeeWriteRegisters env buf len wellNum addr s
      = (-1, storedCells env wellNum.toNat addr.toNat buf s (k + 1)) := by
  obtain ⟨hw8, hw, -⟩ := cellArgsOk_iff.mp hok
  unfold zigbeeWriteRegisters
  rw [if_pos hok]
  exact writeCells_of_stopsAt (by omega) (by unfold maxWellNum; omega) hk h

theorem batchAtomic_of_held (h : BatchHeld env buf len wellNum addr s) :
    BatchAtomic env buf len wellNum addr s := by
  intro hneg
  by_cases hok : cellArgsOk s.map len wellNum addr = true
  · obtain ⟨hw8, hw, haddr, -, hend⟩ := cellArgsOk_iff.mp hok
    have hw1 : 1 ≤ wellNum.toNat := by omega
    have hwm : wellNum.toNat ≤ maxWellNum := by
      unfold maxWellNum
      omega
    obtain ⟨-, heq⟩ | ⟨k, hk, hstop, -⟩ :=
      writeCells_ends env addr.toNat buf s hw1 hwm len.toNat
    · -- a batch that comes to its end returns 0
      unfold zigbeeWriteRegisters at hneg
      rw [if_pos hok, heq] at hneg
      cases hneg
    · obtain ⟨hre, hwords, hclock⟩ := h hok k hk hstop
      rw [zigbeeWriteRegisters_stops hok hk hstop]
      have hsame := storedCells_showsSame (n := k + 1) hre hw1 (by omega)
        fun j hj => hwords j (Nat.le_of_lt_succ hj)
      refine hsame.sameReadings fun u i hu hu8 hi ht hc => ?_
      rw [mapGettime_storedCells hre (isFlash_of_stopsAt hw1 hwm hre hstop)]
      exact hclock u i hu hu8 hi ht hc
  · unfold zigbeeWriteRegisters
    rw [if_neg hok]
    exact ⟨fun _ _ _ => rfl, fun _ _ _ => rfl⟩

/-- A cell that reads the same by itself. -/
theorem SameReadings.readCell {s' : Rtu} (h : SameReadings env s s') {w i : Nat} (hw : 1 ≤ w)
    (hw8 : w ≤ maxWellNum) (hi : i < s.map.xMax) (hmax : s'.map.xMax = s.map.xMax)
    (cur : UInt16) : readCell env s' cur w i = readCell env s cur w i := by
  have hcell := h.cell (fun _ => cur) w i
  rw [zigbeeReadRegisters_one hw hw8, zigbeeReadRegisters_one hw hw8, hmax, if_pos hi,
    if_pos hi] at hcell
  simpa using hcell

theorem batchHeld_of_atomic
    (hre : ¬ s.map.Retypes env wellNum.toNat addr.toNat (buf 0))
    (h : BatchAtomic env buf len wellNum addr s) : BatchHeld env buf len wellNum addr s := by
  intro hok k hk hstop
  obtain ⟨hw8, hw, haddr, -, hend⟩ := cellArgsOk_iff.mp hok
  have hw1 : 1 ≤ wellNum.toNat := by omega
  have hwm : wellNum.toNat ≤ maxWellNum := by
    unfold maxWellNum
    omega
  have hret : zigbeeWriteRegisters env buf len wellNum addr s = _ :=
    zigbeeWriteRegisters_stops hok hk hstop
  unfold BatchAtomic at h
  rw [hret] at h
  have hsame := h rfl
  have hmax : (storedCells env wellNum.toNat addr.toNat buf s (k + 1)).map.xMax = s.map.xMax :=
    congrArg Tables.xMax (storedCells_tables hre (k + 1))
  refine ⟨hre, fun j hj hback => ?_, fun u i hu hu8 hi ht hc => ?_⟩
  · rw [← hsame.readCell hw1 hwm (by omega) hmax]
    exact readCell_storedCells hre hw1 (by omega) (Nat.lt_succ_of_le hj) hback
  · have htab := storedCells_tables (k := k + 1) hre
    have hread := hsame.readCell hu hu8 hi hmax 0
    rwa [readCell_of_clock ht hc, readCell_of_clock (by
      rwa [ramXMapType_eq_of_tables htab, xBase_eq_of_tables htab]) hc,
      mapGettime_storedCells hre (isFlash_of_stopsAt hw1 hwm hre hstop)] at hread

end Batch

end RtuA118
