import RtuA118.Lib.Run
import RtuA118.Map.Run

/-!
# RtuA118.Map.Life

The two writers of the register map that no request goes through.

* `resetFlash1ToDefault`, the **factory reset**: the common file loaded into well 1
  as if the first flash were new. The other wells keep their copies.
* `historyAnswer`, the answer to a request for **history data**: it leaves the times
  of the first record and of the record found, and the record's values from register
  7019 on. The values are stored by `mapModbusWriteDataRegisters`, which looks at the
  record marks of the cells and not at the kind of the registers it writes.

`LifeStep` adds both to the steps of `RtuA118.Map.Run`, an answer call by call: other
threads may run in between.
-/

namespace RtuA118

open Run (Steps)

/-! ### The factory reset -/

/-- `reset_flash1_to_default`. -/
def resetFlash1ToDefault (env : Platform) (s : Rtu) : Option Int × Rtu :=
  match ramMapFlash1ValueInit env 0 0 true false pathMap1 false s.map with
  | (some 0, m) =>
    match (rtuResetFlash1 1 (s.onMap fun _ => m)).2.msync env with
    | (true, s) => (some 0, s)
    | (false, s) => (some (-1), s)
  | (rc, m) => (rc, s.onMap fun _ => m)

/-! ### Recorded values into registers -/

/-- The store loop after `n` turns: the words stored so far, and the unit. A word is
stored where the cell of its number is marked, next to the one stored before. -/
def dataWriteLoop (buf : Nat → UInt16) (bigL : Bool) (w addr : Nat) (s : Rtu) : Nat → Nat × Rtu
  | 0 => (0, s)
  | k + 1 =>
    let (m, s) := dataWriteLoop buf bigL w addr s k
    if s.map.ramXMapRecord (s.map.xBase w + k) = .record then
      (m + 1, s.onMap (·.setRamY w (m + addr) (orderWord bigL (buf k))))
    else (m, s)

/-- `map_modbus_write_data_registers`. -/
def mapModbusWriteDataRegisters (buf : Nat → UInt16) (len wellNum addr : Int) (bigL : Bool)
    (s : Rtu) : Int × Rtu :=
  if registerArgsOk len wellNum addr then
    (0, (dataWriteLoop buf bigL wellNum.toNat addr.toNat s len.toNat).2)
  else (-1, s)

/-! ### The answer to a request for history -/

/-- The registers of the answer: the first record's time, the found record's time and
its values. -/
def historyFirst : Nat := 7006
def historyTime : Nat := 7014
def historyData : Nat := 7019

/-- What the database has: the time of its first record, and the record asked for with
its time, if there is one. -/
structure HistoryRecord where
  first : Nat → UInt16
  found : Option ((Nat → UInt16) × (Nat → UInt16))

/-- `msg_handler` of the data thread. -/
def historyAnswer (env : Platform) (wellNum : Nat) (r : HistoryRecord) (s : Rtu) : Rtu :=
  let s := (mapModbusWriteRegisters env r.first 5 wellNum historyFirst false s).2
  match r.found with
  | none => s
  | some (time, data) =>
    let s := (mapModbusWriteRegisters env time 5 wellNum historyTime false s).2
    (mapModbusWriteDataRegisters (fun k => data (s.map.xBase wellNum + k)) s.map.xMax wellNum
      historyData false s).2

/-! ### The life of the map -/

/-- What can happen to the map, with the reset and the store of recorded values. -/
inductive LifeOp where
  | map (op : MapOp)
  | factoryReset
  | dataWrite (buf : Nat → UInt16) (len wellNum addr : Int) (bigL : Bool)

/-- One step. -/
inductive LifeStep (env : Platform) : Rtu → LifeOp → Rtu → Prop where
  | map {s s' : Rtu} {op : MapOp} : MapStep env s op s' → LifeStep env s (.map op) s'
  | factoryReset (s : Rtu) : LifeStep env s .factoryReset (resetFlash1ToDefault env s).2
  | dataWrite (s : Rtu) (buf : Nat → UInt16) (len wellNum addr : Int) (bigL : Bool) :
      LifeStep env s (.dataWrite buf len wellNum addr bigL)
        (mapModbusWriteDataRegisters buf len wellNum addr bigL s).2

/-- An answer is a write of each time and the store of the values. -/
theorem historyAnswer_steps (env : Platform) (wellNum : Nat) (r : HistoryRecord) (s : Rtu) :
    Steps (LifeStep env) s (historyAnswer env wellNum r s) := by
  have hfirst : Steps (LifeStep env) s
      (mapModbusWriteRegisters env r.first 5 wellNum historyFirst false s).2 :=
    .one (.map (.modbusWrite s r.first 5 wellNum historyFirst false))
  unfold historyAnswer
  split
  · exact hfirst
  · rename_i time data _
    exact (hfirst.trans (.one (.map (.modbusWrite _ time 5 wellNum historyTime false)))).trans
      (.one (.dataWrite _ _ _ _ _ _))

/-! ### What they do to the tables -/

/-- The reset loads the common file, however it ends. -/
theorem resetFlash1ToDefault_map {env : Platform} {s : Rtu} :
    (resetFlash1ToDefault env s).2.map =
      (fileCells env pathMap1).foldl (loadCell 0 0 true false) s.map := by
  have hload : (ramMapFlash1ValueInit env 0 0 true false pathMap1 false s.map).2 = _ :=
    ramMapFlash1ValueInit_snd
  rw [← hload]
  unfold resetFlash1ToDefault
  split
  · rename_i m h
    rw [h]
    split <;>
      · rename_i s' hm
        obtain ⟨-, rfl⟩ := Rtu.msync_eq hm
        simp
  · rename_i rc m _ h
    rw [h]
    rfl

theorem resetFlash1ToDefault_tables {env : Platform} {s : Rtu} :
    (resetFlash1ToDefault env s).2.map.tables
      = s.map.tables.loadCells 0 0 (fileCells env pathMap1) := by
  rw [resetFlash1ToDefault_map, tables_foldl_loadCell]

/-- The cells marked for recording among the first `n` of a well. -/
def MapT.recordCount (m : MapT) (w n : Nat) : Nat :=
  (List.range n).countP fun k => m.ramXMapRecord (m.xBase w + k) = .record

theorem MapT.recordCount_succ (m : MapT) (w n : Nat) :
    m.recordCount w (n + 1) = m.recordCount w n +
      if m.ramXMapRecord (m.xBase w + n) = .record then 1 else 0 := by
  unfold recordCount
  rw [List.range_succ, List.countP_append]
  simp [List.countP_cons]

/-- The store loop writes the registers from `addr` on, one for each marked cell. -/
theorem dataWriteLoop_spec (buf : Nat → UInt16) (bigL : Bool) (w addr : Nat) (s : Rtu) (n : Nat) :
    (dataWriteLoop buf bigL w addr s n).1 = s.map.recordCount w n ∧
      (dataWriteLoop buf bigL w addr s n).2.map.xMax = s.map.xMax ∧
      (dataWriteLoop buf bigL w addr s n).2.map.ramXMapType = s.map.ramXMapType ∧
      (dataWriteLoop buf bigL w addr s n).2.map.ramXMapRecord = s.map.ramXMapRecord ∧
      (dataWriteLoop buf bigL w addr s n).2.map.ramXMapRw = s.map.ramXMapRw ∧
      (dataWriteLoop buf bigL w addr s n).2.map.ramYMapType = s.map.ramYMapType ∧
      ∀ r, (∀ k < s.map.recordCount w n, r ≠ yBase w + (addr + k)) →
        (dataWriteLoop buf bigL w addr s n).2.map.ramY r = s.map.ramY r := by
  induction n with
  | zero => exact ⟨rfl, rfl, rfl, rfl, rfl, rfl, fun _ _ => rfl⟩
  | succ n ih =>
      obtain ⟨hcount, hx, htype, hrec, hrw, hreg, hy⟩ := ih
      have hbase : (dataWriteLoop buf bigL w addr s n).2.map.xBase w = s.map.xBase w :=
        congrArg (· * (w - 1)) hx
      unfold dataWriteLoop
      dsimp only
      rw [hrec, hbase, s.map.recordCount_succ]
      split
      · refine ⟨by rw [hcount], hx, htype, hrec, hrw, hreg, fun r hr => ?_⟩
        have hne : r ≠ yBase w + (s.map.recordCount w n + addr) :=
          Nat.add_comm addr _ ▸ hr _ (Nat.lt_succ_self _)
        rw [hcount]
        exact (Function.update_of_ne hne _ _).trans (hy r fun k hk => hr k (Nat.lt_succ_of_lt hk))
      · exact ⟨hcount, hx, htype, hrec, hrw, hreg, hy⟩

end RtuA118
