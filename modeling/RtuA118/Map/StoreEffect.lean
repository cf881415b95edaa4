import RtuA118.Map.RegisterFile
import RtuA118.Map.RemapScope

/-!
# RtuA118.Map.StoreEffect

What the store of one word does, whether or not it succeeds.

A word of a flash cell is in the flash before `msync` is asked. Whether the store then
fails depends on two things only, the mapping tables and the number of `msync` calls so
far (`Outlook`). `writeCell_map` says what it leaves in the map, as long as it is no
accepted change of type (`MapT.Retypes`): the word in the flash behind the cell, and in the
cell itself where its reading shows it (`SeesRam`).
-/

namespace RtuA118

/-! ### The calls of `msync` -/

instance (w : List Char) : Decidable (RowScans w) :=
  decidable_of_iff ((parseRow w).any (fun row => !row.endless) = true)
    (by simp [RowScans, Option.any_eq_true])

instance (env : Platform) (path : List Char) : Decidable (FileScans env path) :=
  decidable_of_iff
    ((env.readFile path).any (fun text => (scanWords text).all fun w => decide (RowScans w)) = true)
    (by simp [FileScans, Option.any_eq_true])

/-- Kinds whose cells are stored through `msync`. -/
def MapKind.IsFlash (k : MapKind) : Prop := k = .flash1 ∨ k = .flash2

instance (k : MapKind) : Decidable k.IsFlash := inferInstanceAs (Decidable (_ ∨ _))

/-- The function-mapped indices with a word in the second flash behind them, which their
action stores. -/
def FunStores (i : Nat) : Prop :=
  i = mapConfig2ElecInterv ∨ i = mapConfig2ActInterv ∨ (mapGetDO0 ≤ i ∧ i < mapGetDO0 + 8)

instance (i : Nat) : Decidable (FunStores i) := inferInstanceAs (Decidable (_ ∨ _))

/-- The indices of the clock. -/
def ClockIndex (i : Nat) : Prop := mapGetTimeHour ≤ i ∧ i ≤ mapGetTimeDay

instance (i : Nat) : Decidable (ClockIndex i) := inferInstanceAs (Decidable (_ ∧ _))

/-- They are none of those tested before. -/
theorem FunStores.others {i : Nat} (h : FunStores i) :
    i ≠ mapChangeWellType ∧ i ≠ mapGetRtuVer ∧ ¬ (mapGetTimeHour ≤ i ∧ i ≤ mapGetTimeDay) ∧
      i ≠ mapGetBatteryVoltage ∧ i ≠ mapConfig1 ∧ ¬ (mapGetMac0 ≤ i ∧ i < mapGetMac0 + 6) := by
  unfold FunStores mapConfig2ElecInterv mapConfig2ActInterv mapGetDO0 at h
  unfold mapChangeWellType mapGetRtuVer mapGetTimeHour mapGetTimeDay mapGetBatteryVoltage
    mapConfig1 mapGetMac0
  omega

/-- The calls a change of type makes: one, if the type is listed and its file scans. -/
def remapCalls (env : Platform) (t : UInt16) : Nat :=
  match getMap00Path env t with
  | none => 0
  | some path => if FileScans env path then 1 else 0

/-- The calls that the store of one word makes. -/
def storeCalls (env : Platform) (kind : MapKind) (i : Nat) (v : UInt16) : Nat :=
  match kind with
  | .flash1 | .flash2 => 1
  | .sys => if i = mapChangeWellType then remapCalls env v else if FunStores i then 1 else 0
  | _ => 0

section Calls

variable {env : Platform} {w i : Nat} {v t : UInt16} {s : Rtu}

theorem mapItemRemap_msyncs (hw : 1 ≤ w) (hw8 : w ≤ maxWellNum) :
    (mapItemRemap env w t s).2.msyncs = s.msyncs + remapCalls env t := by
  unfold mapItemRemap remapCalls
  rw [if_neg (by unfold maxWellNum at *; omega)]
  cases getMap00Path env t with
  | none => rfl
  | some path =>
      have hscans : (ramMapFlash1ValueInit env ((s.onMap (·.setFlash2 w 0 t)).map.xBase w)
          (yBase w) false true path false (s.onMap (·.setFlash2 w 0 t)).map).1 = some 0 ↔
          FileScans env path := ramMapFlash1ValueInit_eq_zero_iff
      dsimp only
      split
      · -- the file scanned: the one call
        rename_i m hload
        rw [if_pos (hscans.mp (congrArg Prod.fst hload))]
        split <;>
          · rename_i hsync
            obtain ⟨-, rfl⟩ := Rtu.msync_eq hsync
            rfl
      · rename_i rc m hrc hload
        rw [if_neg fun h => hrc ((congrArg Prod.fst hload).symm.trans (hscans.mpr h))]
        rfl

theorem mapItemRemap_time : (mapItemRemap env w t s).2.time = s.time := by
  obtain ⟨-, hs⟩ | ⟨path, -, -, s', rfl, hs⟩ := mapItemRemap_cases env w t s
  · rw [hs]
  · rcases hs with hs | hs <;> rw [hs] <;> rfl

/-- A store fails at a flash cell whose `msync` does. -/
theorem writeCell_fst : (writeCell env w i v s).1 = false ↔
    (s.map.ramXMapType (s.map.xBase w + i)).IsFlash ∧ env.msync s.msyncs = false := by
  unfold MapKind.IsFlash
  cases ht : s.map.ramXMapType (s.map.xBase w + i) with
  | flash1 => simp [writeCell_flash1 ht]
  | flash2 => simp [writeCell_flash2 ht]
  | sys =>
      simp only [writeCell, ht]
      split <;> simp
  | _ => simp [writeCell, ht]

theorem rtuResetFlash1_msyncs : (rtuResetFlash1 v s).2.msyncs = s.msyncs := by
  unfold rtuResetFlash1
  split
  · simp only [List.foldl_cons, List.foldl_nil, Rtu.post_msyncs]
  · rfl

theorem rtuResetFlash1_time : (rtuResetFlash1 v s).2.time = s.time := by
  unfold rtuResetFlash1
  split
  · simp only [List.foldl_cons, List.foldl_nil, Rtu.post_time]
  · rfl

theorem gpioSetDo_time : (gpioSetDo env i v s).time = s.time := by
  unfold gpioSetDo
  split <;> rfl

theorem storeFun_time {wf : Nat} : (storeFun env wf w i v s).time = s.time := rfl

theorem gpioSetDo_msyncs : (gpioSetDo env i v s).msyncs = s.msyncs := by
  unfold gpioSetDo
  split <;> rfl

theorem storeFun_msyncs {wf : Nat} : (storeFun env wf w i v s).msyncs = s.msyncs + 1 := rfl

/-- What an index without a write function is not. -/
theorem mapMapFunWrite_eq_none (h : mapMapFunWrite env v w i s = none) :
    i ≠ mapChangeWellType ∧ ¬ ClockIndex i ∧ ¬ FunStores i := by
  unfold mapMapFunWrite at h
  unfold ClockIndex FunStores
  split_ifs at h
  tauto

theorem writeCell_msyncs (hw : 1 ≤ w) (hw8 : w ≤ maxWellNum) :
    (writeCell env w i v s).2.msyncs =
      s.msyncs + storeCalls env (s.map.ramXMapType (s.map.xBase w + i)) i v := by
  unfold storeCalls
  cases ht : s.map.ramXMapType (s.map.xBase w + i) with
  | flash1 => rw [writeCell_flash1 ht]; rfl
  | flash2 => rw [writeCell_flash2 ht]; rfl
  | sys =>
      simp only [writeCell, ht]
      split
      · rename_i v' s' hf
        show s'.msyncs = _
        by_cases h0 : i = mapChangeWellType
        · subst h0
          rw [mapMapFunWrite_change] at hf
          obtain ⟨rfl, rfl⟩ := Option.some.inj hf
          rw [if_pos rfl, mapItemRemap_msyncs hw hw8]
        · rw [if_neg h0]
          obtain ⟨hi, -, rfl⟩ | ⟨hi, -, rfl⟩ | ⟨hi, -, rfl⟩ | ⟨hi, -, rfl⟩ | ⟨hi, -, rfl⟩ :=
            mapMapFunWrite_cases hf h0
          · rw [if_neg fun hs => hs.others.2.2.1 hi]
            rfl
          · rw [if_neg (by subst hi; decide), rtuResetFlash1_msyncs]
            rfl
          · rw [if_pos (by unfold FunStores; tauto), storeFun_msyncs]
            rfl
          · rw [if_pos (by unfold FunStores; tauto), storeFun_msyncs, gpioSetDo_msyncs]
          · rw [if_neg (by subst hi; decide)]
            rfl
      · rename_i hf
        obtain ⟨h0, -, hstores⟩ := mapMapFunWrite_eq_none hf
        rw [if_neg h0, if_neg hstores]
        rfl
  | _ => simp [writeCell, ht, Rtu.onMap]

/-- Only a clock cell sets the time. -/
theorem writeCell_time : (writeCell env w i v s).2.time =
    if s.map.ramXMapType (s.map.xBase w + i) = .sys ∧ ClockIndex i then
      (mapSettime env i v s).time
    else s.time := by
  cases ht : s.map.ramXMapType (s.map.xBase w + i) with
  | flash1 => rw [writeCell_flash1 ht]; simp [Rtu.onMap, Rtu.msync]
  | flash2 => rw [writeCell_flash2 ht]; simp [Rtu.onMap, Rtu.msync]
  | sys =>
      simp only [writeCell, ht, true_and]
      split
      · rename_i v' s' hf
        show s'.time = _
        by_cases h0 : i = mapChangeWellType
        · subst h0
          rw [mapMapFunWrite_change] at hf
          obtain ⟨rfl, rfl⟩ := Option.some.inj hf
          rw [if_neg (by decide), mapItemRemap_time]
        · obtain ⟨hi, -, rfl⟩ | ⟨hi, -, rfl⟩ | ⟨hi, -, rfl⟩ | ⟨hi, -, rfl⟩ | ⟨hi, -, rfl⟩ :=
            mapMapFunWrite_cases hf h0
          · exact (if_pos hi).symm
          · rw [if_neg (by subst hi; decide), rtuResetFlash1_time]
          · rw [if_neg (by rcases hi with rfl | rfl <;> decide)]
            rfl
          · have hclock : ¬ ClockIndex i := (FunStores.others (.inr (.inr hi))).2.2.1
            rw [if_neg hclock, storeFun_time, gpioSetDo_time]
          · rw [if_neg (by subst hi; decide)]
            rfl
      · rename_i hf
        rw [if_neg (mapMapFunWrite_eq_none hf).2.1]
        rfl
  | _ => simp [writeCell, ht, Rtu.onMap]

end Calls

/-! ### The outlook -/

/-- What decides whether the next store fails: the tables, and the calls so far. -/
structure Outlook where
  tables : Tables
  calls : Nat

def Rtu.outlook (s : Rtu) : Outlook := ⟨s.map.tables, s.msyncs⟩

namespace Outlook

/-- The store into the cell fails. -/
def Fails (env : Platform) (w i : Nat) (o : Outlook) : Prop :=
  (o.tables.ramXMapType (o.tables.xBase w + i)).IsFlash ∧ env.msync o.calls = false

instance (env : Platform) (w i : Nat) (o : Outlook) : Decidable (o.Fails env w i) :=
  inferInstanceAs (Decidable (_ ∧ _))

/-- The outlook after a word is stored into the cell. -/
def afterStore (env : Platform) (w i : Nat) (v : UInt16) (o : Outlook) : Outlook where
  tables :=
    if i = mapChangeWellType ∧ o.tables.ramXMapType (o.tables.xBase w + i) = .sys then
      o.tables.remap env w v
    else o.tables
  calls := o.calls + storeCalls env (o.tables.ramXMapType (o.tables.xBase w + i)) i v

end Outlook

section Outlook

variable {env : Platform} {w : Nat} {s : Rtu}

theorem writeCell_fst_iff {i : Nat} {v : UInt16} :
    (writeCell env w i v s).1 = false ↔ s.outlook.Fails env w i := writeCell_fst

theorem writeCell_outlook {i : Nat} {v : UInt16} (hw : 1 ≤ w) (hw8 : w ≤ maxWellNum) :
    (writeCell env w i v s).2.outlook = s.outlook.afterStore env w i v := by
  unfold Rtu.outlook Outlook.afterStore
  rw [writeCell_tables, writeCell_msyncs hw hw8]
  rfl

end Outlook

/-! ### What a reading shows -/

/-- The function-mapped indices with a read function. -/
def FunReads (i : Nat) : Prop :=
  i = mapChangeWellType ∨ i = mapGetRtuVer ∨ ClockIndex i ∨ i = mapGetBatteryVoltage ∨
    i = mapConfig1 ∨ (mapGetMac0 ≤ i ∧ i < mapGetMac0 + 6) ∨
    (i = mapConfig2ElecInterv ∨ i = mapConfig2ActInterv) ∨
    (mapGetDI0 ≤ i ∧ i < mapGetDI0 + 8) ∨ (mapGetDO0 ≤ i ∧ i < mapGetDO0 + 8)

instance (i : Nat) : Decidable (FunReads i) := inferInstanceAs (Decidable (_ ∨ _))

/-- A reading of the cell shows its word of `ram_x`. -/
def SeesRam (kind : MapKind) (i : Nat) : Prop :=
  kind = .null ∨ kind = .ram ∨ kind = .sys ∧ ¬ FunReads i

/-- A reading of the cell shows the word that a write of it stores. -/
def ReadsStored (kind : MapKind) (i : Nat) : Prop :=
  SeesRam kind i ∨ kind.IsFlash ∨ kind = .sys ∧ FunStores i

theorem ReadsStored.not_clockIndex {i : Nat} (h : ReadsStored .sys i) : ¬ ClockIndex i := by
  intro hc
  obtain (h | h | ⟨-, h⟩) | h | ⟨-, h⟩ := h
  · cases h
  · cases h
  · exact h (.inr (.inr (.inl hc)))
  · exact absurd h (by decide)
  · exact h.others.2.2.1 hc

instance (kind : MapKind) (i : Nat) : Decidable (SeesRam kind i) :=
  inferInstanceAs (Decidable (_ ∨ _))

instance (kind : MapKind) (i : Nat) : Decidable (ReadsStored kind i) :=
  inferInstanceAs (Decidable (_ ∨ _))

section Readings

variable {env : Platform} {w i : Nat} {v cur : UInt16} {s : Rtu}

theorem mapMapFunRead_eq_none_iff : mapMapFunRead env s cur w i = none ↔ ¬ FunReads i := by
  unfold mapMapFunRead FunReads ClockIndex
  split_ifs <;> simp_all

/-- A cell without a read function reads as its word of `ram_x`. -/
theorem readCell_of_seesRam (h : SeesRam (s.map.ramXMapType (s.map.xBase w + i)) i) :
    readCell env s cur w i = s.map.ramX (s.map.xBase w + i) := by
  unfold readCell
  obtain ht | ht | ⟨ht, hfun⟩ := h
  · rw [ht]
  · rw [ht]
  · rw [ht]
    dsimp only
    rw [mapMapFunRead_eq_none_iff.mpr hfun, Option.getD_none]

/-- The well whose second flash a function-mapped index reads and stores. -/
def flash2Well (w i : Nat) : Nat := if mapGetDO0 ≤ i ∧ i < mapGetDO0 + 8 then 1 else w

theorem readCell_of_funStores (ht : s.map.ramXMapType (s.map.xBase w + i) = .sys)
    (h : FunStores i) :
    readCell env s cur w i = s.map.flash2 (s.map.xBase (flash2Well w i) + i) := by
  obtain ⟨h0, h2, htime, h10, h16, hmac⟩ := h.others
  unfold readCell mapMapFunRead flash2Well
  rw [ht]
  dsimp only
  rw [if_neg h0, if_neg h2, if_neg htime, if_neg h10, if_neg h16, if_neg hmac]
  by_cases hinterv : i = mapConfig2ElecInterv ∨ i = mapConfig2ActInterv
  · rw [if_pos hinterv, if_neg (by rcases hinterv with rfl | rfl <;> decide), Option.getD_some]
  · have hdo : mapGetDO0 ≤ i ∧ i < mapGetDO0 + 8 := by
      unfold FunStores at h
      tauto
    have hdi : ¬ (mapGetDI0 ≤ i ∧ i < mapGetDI0 + 8) := by
      unfold mapGetDO0 at hdo
      unfold mapGetDI0
      omega
    rw [if_neg hinterv, if_neg hdi, if_pos hdo, if_pos hdo, Option.getD_some]

theorem readCell_of_clock (ht : s.map.ramXMapType (s.map.xBase w + i) = .sys)
    (hc : ClockIndex i) : readCell env s cur w i = mapGettime env s i := by
  have h0 : i ≠ mapChangeWellType := by
    rintro rfl
    exact absurd hc (by decide)
  have h2 : i ≠ mapGetRtuVer := by
    rintro rfl
    exact absurd hc (by decide)
  unfold readCell mapMapFunRead
  rw [ht]
  dsimp only
  rw [if_neg h0, if_neg h2]
  exact congrArg (Option.getD · _) (if_pos hc)

/-- An accepted change of type. -/
def MapT.Retypes (env : Platform) (m : MapT) (w i : Nat) (v : UInt16) : Prop :=
  i = mapChangeWellType ∧ m.ramXMapType (m.xBase w + i) = .sys ∧ (getMap00Path env v).isSome

@[simp] theorem MapT.setRamX_setRamX (m : MapT) (u v : UInt16) :
    (m.setRamX w i u).setRamX w i v = m.setRamX w i v := by
  unfold setRamX xBase
  simp

/-- What the store of a function-mapped cell does to the map, other than an accepted change
of type: it sets the word in the second flash, if there is one, and the cell's own. -/
theorem writeCell_sys_map (ht : s.map.ramXMapType (s.map.xBase w + i) = .sys)
    (hre : ¬ s.map.Retypes env w i v) : ∃ v', (FunReads i ∨ v' = v) ∧
    (writeCell env w i v s).2.map =
      ((if FunStores i then s.map.setFlash2 (flash2Well w i) i v else s.map).setRamX w i v') := by
  simp only [writeCell, ht]
  by_cases h0 : i = mapChangeWellType
  · -- a type that is not listed is refused before anything is stored
    subst h0
    have hpath : getMap00Path env v = none := by
      simpa [MapT.Retypes, ht] using hre
    have hsame : (mapItemRemap env w v s).2 = s := by
      obtain ⟨-, hs⟩ | ⟨path, hp, -⟩ := mapItemRemap_cases env w v s
      · exact hs
      · rw [hpath] at hp
        cases hp
    refine ⟨v, .inr rfl, ?_⟩
    rw [mapMapFunWrite_change, hsame, if_neg (by decide)]
    rfl
  · cases hf : mapMapFunWrite env v w i s with
    | none =>
        refine ⟨v, .inr rfl, ?_⟩
        rw [if_neg (mapMapFunWrite_eq_none hf).2.2]
        rfl
    | some r =>
        obtain ⟨v', s'⟩ := r
        -- one case for each function that writes
        obtain ⟨hi, rfl, rfl⟩ | ⟨hi, rfl, rfl⟩ | ⟨hi, rfl, rfl⟩ | ⟨hi, rfl, rfl⟩ | ⟨hi, rfl, rfl⟩ :=
          mapMapFunWrite_cases hf h0
        · refine ⟨v', .inr rfl, ?_⟩
          rw [if_neg fun hs => hs.others.2.2.1 hi]
          rfl
        · refine ⟨(rtuResetFlash1 v s).1, .inl (by subst hi; decide), ?_⟩
          rw [if_neg (by subst hi; decide)]
          simp
        · refine ⟨v', .inr rfl, ?_⟩
          rw [if_pos (by unfold FunStores; tauto), flash2Well,
            if_neg (by rcases hi with rfl | rfl <;> decide)]
          simp only [Rtu.onMap_map, storeFun_map, Rtu.post_map, MapT.setRamX_setRamX]
        · refine ⟨v', .inr rfl, ?_⟩
          rw [if_pos (by unfold FunStores; tauto), flash2Well, if_pos hi]
          simp only [Rtu.onMap_map, storeFun_map, gpioSetDo_map, MapT.setRamX_setRamX]
        · refine ⟨v', .inr rfl, ?_⟩
          rw [if_neg (by subst hi; decide)]
          simp only [Rtu.onMap_map, Rtu.post_map, MapT.setRamX_setRamX]

/-! The four arrays after a store that is no accepted change of type. -/

/-- The map with the word in the flash behind the cell, if there is one. -/
def MapT.putFlash (m : MapT) (w i : Nat) (v : UInt16) : MapT :=
  match m.ramXMapType (m.xBase w + i) with
  | .flash1 => m.setFlash1 i v
  | .flash2 => m.setFlash2 w i v
  | .sys => if FunStores i then m.setFlash2 (flash2Well w i) i v else m
  | _ => m

theorem MapT.setRamX_self (m : MapT) : m.setRamX w i (m.ramX (m.xBase w + i)) = m := by
  unfold setRamX
  rw [Function.update_eq_self]

/-- The word goes into the flash, and some word into the cell: the same one, if it shows. -/
theorem writeCell_map (hre : ¬ s.map.Retypes env w i v) :
    ∃ u, (SeesRam (s.map.ramXMapType (s.map.xBase w + i)) i → u = v) ∧
      (writeCell env w i v s).2.map = (s.map.putFlash w i v).setRamX w i u := by
  unfold MapT.putFlash SeesRam
  cases ht : s.map.ramXMapType (s.map.xBase w + i) with
  | null => exact ⟨v, fun _ => rfl, by simp [writeCell, ht]⟩
  | ram => exact ⟨v, fun _ => rfl, by simp [writeCell, ht]⟩
  | flash1 =>
      rw [writeCell_flash1 ht]
      dsimp only [Rtu.onMap_map]
      split
      · exact ⟨v, fun _ => rfl, rfl⟩
      · exact ⟨_, by simp, (MapT.setRamX_self _).symm⟩
  | flash2 =>
      rw [writeCell_flash2 ht]
      dsimp only [Rtu.onMap_map]
      split
      · exact ⟨v, fun _ => rfl, rfl⟩
      · exact ⟨_, by simp, (MapT.setRamX_self _).symm⟩
  | sys =>
      obtain ⟨u, hu, hmap⟩ := writeCell_sys_map ht hre
      exact ⟨u, fun h => hu.resolve_left (by simpa using h), hmap⟩
  | _ =>
      refine ⟨s.map.ramX (s.map.xBase w + i), by simp, ?_⟩
      simp [writeCell, ht, MapT.setRamX_self]

theorem writeCell_tables_eq (hre : ¬ s.map.Retypes env w i v) :
    (writeCell env w i v s).2.map.tables = s.map.tables := by
  obtain ⟨u, -, hmap⟩ := writeCell_map hre
  rw [hmap, MapT.tables_setRamX]
  unfold MapT.putFlash
  split
  · rfl
  · rfl
  · split <;> rfl
  · rfl

theorem writeCell_flash1_eq (hre : ¬ s.map.Retypes env w i v) :
    (writeCell env w i v s).2.map.flash1 =
      if s.map.ramXMapType (s.map.xBase w + i) = .flash1 then Function.update s.map.flash1 i v
      else s.map.flash1 := by
  obtain ⟨u, -, hmap⟩ := writeCell_map hre
  rw [hmap]
  unfold MapT.putFlash MapT.setRamX MapT.setFlash1 MapT.setFlash2
  cases s.map.ramXMapType (s.map.xBase w + i) with
  | sys =>
      dsimp only
      split <;> simp
  | _ => simp

theorem writeCell_flash2_eq (hre : ¬ s.map.Retypes env w i v) :
    (writeCell env w i v s).2.map.flash2 =
      if s.map.ramXMapType (s.map.xBase w + i) = .flash2 then
        Function.update s.map.flash2 (s.map.xBase w + i) v
      else if s.map.ramXMapType (s.map.xBase w + i) = .sys ∧ FunStores i then
        Function.update s.map.flash2 (s.map.xBase (flash2Well w i) + i) v
      else s.map.flash2 := by
  obtain ⟨u, -, hmap⟩ := writeCell_map hre
  rw [hmap]
  unfold MapT.putFlash MapT.setRamX MapT.setFlash1 MapT.setFlash2
  cases s.map.ramXMapType (s.map.xBase w + i) with
  | sys =>
      dsimp only
      split
      · rename_i hs
        simp [hs]
      · rename_i hs
        simp [hs]
  | _ => simp

theorem writeCell_ramX_eq (hre : ¬ s.map.Retypes env w i v) : ∃ u,
    (SeesRam (s.map.ramXMapType (s.map.xBase w + i)) i → u = v) ∧
      (writeCell env w i v s).2.map.ramX = Function.update s.map.ramX (s.map.xBase w + i) u := by
  obtain ⟨u, hu, hmap⟩ := writeCell_map hre
  refine ⟨u, hu, ?_⟩
  rw [hmap]
  unfold MapT.putFlash
  split
  · rfl
  · rfl
  · split <;> rfl
  · rfl

theorem writeCell_ramX_self (hre : ¬ s.map.Retypes env w i v)
    (h : SeesRam (s.map.ramXMapType (s.map.xBase w + i)) i) :
    (writeCell env w i v s).2.map.ramX (s.map.xBase w + i) = v := by
  obtain ⟨u, hu, hram⟩ := writeCell_ramX_eq hre
  rw [hram, Function.update_self, hu h]

theorem writeCell_ramX_ne {b : Nat} (hre : ¬ s.map.Retypes env w i v)
    (hb : b ≠ s.map.xBase w + i) : (writeCell env w i v s).2.map.ramX b = s.map.ramX b := by
  obtain ⟨u, -, hram⟩ := writeCell_ramX_eq hre
  rw [hram, Function.update_of_ne hb]

end Readings

end RtuA118
