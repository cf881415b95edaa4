import RtuA118.Data.Stamp
import RtuA118.Map.Integrity
import RtuA118.Map.Snapshot

/-!
# RtuA118.Data.Retrieval

From a snapshot to the answer of a later request.

`storeSnapshot` is the other half of the data thread: it copies `ram_x`, compresses the
copy and adds a row, and from time to time it deletes the oldest rows. A run interleaves
snapshots, requests and register writes. Beside the thread stands a ghost record of what
its rows were made from (`Filed`); the queries select from that record as they select
from the table.

`history_retrieval` follows a row back to its registers. It needs the row's blob to be
no longer than a snapshot: `uncompress` is given that length and not the blob's, so of a
longer blob it sees the front only (`not_history_retrieval`).
-/

namespace RtuA118

open Run (Steps guarded)

/-! ### Snapshots -/

/-- The bytes of a snapshot. -/
def snapshotBytes (m : MapT) : List UInt8 := bytesOfWords (historyRecord m)

@[simp] theorem historyRecord_length (m : MapT) :
    (historyRecord m).length = m.xMax * maxWellNum := by
  simp [historyRecord]

theorem historyRecord_getD {m : MapT} {k : Nat} (h : k < m.xMax * maxWellNum) :
    (historyRecord m).getD k 0 = m.ramX k := by
  simp [historyRecord, h]

@[simp] theorem snapshotBytes_length (m : MapT) :
    (snapshotBytes m).length = 2 * (m.xMax * maxWellNum) := by
  simp [snapshotBytes]

/-- The text of the first row's time, or the default. -/
def firstTime (rows : List DataRow) : List Char :=
  (rows.head?.bind DataRow.time).getD "2015-1-1 0:0:0".toList

/-- `MAX_H_DATA_ITEM_LEN` and `MAX_H_DATA_DEL_ITEM_LEN`. -/
def maxHDataItemLen : Int := 8000
def maxHDataDelItemLen : Nat := 2000

/-- The table is full once one more row is added. -/
def DataThread.Full (d : DataThread) : Prop := d.hDataLen + 1 > maxHDataItemLen

instance (d : DataThread) : Decidable d.Full := inferInstanceAs (Decidable (_ > _))

/-- The loop of the data thread when the time to store has come. The inserts succeed. -/
def storeSnapshot (z : Zlib) (stamp : Stamp) (d : DataThread) : DataThread :=
  let bytes := snapshotBytes d.rtu.map
  let blob := z.compress bytes
  let d := { d with buf := Store.put 0 bytes d.buf }
  if blob.length ≤ z.compressBound d.tlen then
    let rows := d.rows ++ [⟨some stamp.text, some blob⟩]
    if d.Full then
      { d with
        rows := rows.drop maxHDataDelItemLen
        hDataLen := d.hDataLen + 1 - maxHDataDelItemLen
        firstDataTime := scanTime (firstTime (rows.drop maxHDataDelItemLen)) d.firstDataTime }
    else { d with rows := rows, hDataLen := d.hDataLen + 1 }
  else d

/-! ### Runs -/

/-- What a row was made from: the time of the insert and the map at that moment. -/
structure Filing where
  stamp : Stamp
  map : MapT

/-- The row of a snapshot. -/
def Filing.row (z : Zlib) (f : Filing) : DataRow :=
  ⟨some f.stamp.text, some (z.compress (snapshotBytes f.map))⟩

/-- The data thread, and beside it what its rows were made from. -/
structure Archive where
  thread : DataThread
  filed : List Filing

/-- What happens to it. -/
inductive ArchiveOp where
  | write (op : MapOp)
  | snapshot (stamp : Stamp)
  | request (well : Nat)

/-- A snapshot files what it adds to the table. -/
def Archive.snapshot (z : Zlib) (stamp : Stamp) (a : Archive) : Archive where
  thread := storeSnapshot z stamp a.thread
  filed :=
    if (z.compress (snapshotBytes a.thread.rtu.map)).length ≤ z.compressBound a.thread.tlen then
      let filed := a.filed ++ [⟨stamp, a.thread.rtu.map⟩]
      if a.thread.Full then filed.drop maxHDataDelItemLen else filed
    else a.filed

/-- One step. What the handler's arrays and the heap hold is up to the step. -/
inductive ArchiveStep (z : Zlib) (env : Platform) : Archive → ArchiveOp → Archive → Prop where
  | write {a : Archive} {op : MapOp} {s' : Rtu} : MapStep env a.thread.rtu op s' →
      ArchiveStep z env a (.write op) { a with thread := { a.thread with rtu := s' } }
  | snapshot (a : Archive) (stamp : Stamp) :
      ArchiveStep z env a (.snapshot stamp) (a.snapshot z stamp)
  | request (a : Archive) (stack : Nat → UInt16) (junk : Nat → UInt8) (well : Nat) :
      ArchiveStep z env a (.request well)
        { a with thread := (msgHandler z env stack junk well a.thread).thread }

/-! ### The record marks -/

/-- The block size, the record marks and the kinds of registers are as before. -/
structure SameMarks (m m' : MapT) : Prop where
  xMax : m'.xMax = m.xMax
  record : m'.ramXMapRecord = m.ramXMapRecord
  regType : m'.ramYMapType = m.ramYMapType

namespace SameMarks

theorem refl (m : MapT) : SameMarks m m := ⟨rfl, rfl, rfl⟩

theorem trans {m m' m'' : MapT} (h : SameMarks m m') (h' : SameMarks m' m'') : SameMarks m m'' :=
  ⟨h'.xMax.trans h.xMax, h'.record.trans h.record, h'.regType.trans h.regType⟩

theorem putRamY (m : MapT) (w y : Nat) (vs : List UInt16) : SameMarks m (m.putRamY w y vs) :=
  ⟨rfl, rfl, rfl⟩

end SameMarks

section Marks

variable {env : Platform} {s : Rtu} {w : Nat} {buf : Nat → UInt16} {bigL : Bool}

/-- A cell's write leaves the record marks, unless it is a change of type. -/
theorem writeCell_record {i : Nat} {v : UInt16}
    (h0 : ¬ (i = mapChangeWellType ∧ s.map.ramXMapType (s.map.xBase w + i) = .sys)) :
    (writeCell env w i v s).2.map.ramXMapRecord = s.map.ramXMapRecord := by
  have ht : (writeCell env w i v s).2.map.tables = _ := writeCell_tables
  rw [if_neg h0] at ht
  exact congrArg Tables.ramXMapRecord ht

theorem writeCells_record {i : Nat} {vs : List UInt16}
    (h0 : ¬ (i = mapChangeWellType ∧ s.map.ramXMapType (s.map.xBase w + i) = .sys)) :
    (writeCells env w i vs s).2.map.ramXMapRecord = s.map.ramXMapRecord := by
  cases vs with
  | nil => rfl
  | cons v vs =>
      have hcell : (writeCell env w i v s).2.map.ramXMapRecord = s.map.ramXMapRecord :=
        writeCell_record h0
      rw [writeCells_cons]
      split
      · have hrest : (writeCells env w (i + 1) vs (writeCell env w i v s).2).2.map.tables = _ :=
          writeCells_tables (Nat.le_add_left 1 i)
        exact (congrArg Tables.ramXMapRecord hrest).trans hcell
      · exact hcell

theorem WriteLoop.turn_record {c : WriteLoop} (hw : 1 ≤ w) (hw8 : w ≤ maxWellNum)
    (hl : ¬ c.rtu.map.LeadsToType w c.i) :
    (c.turn env buf bigL w).rtu.map.ramXMapRecord = c.rtu.map.ramXMapRecord := by
  unfold WriteLoop.turn
  dsimp only
  split
  · rfl
  · rename_i hram
    split
    · rfl
    · rename_i hrw
      dsimp only
      rw [zigbeeWriteRegisters_one hw hw8]
      split
      · refine writeCell_record fun h => hl ?_
        obtain ⟨h0, hsys⟩ := h
        rw [h0] at hsys hrw
        exact ⟨hram, h0, not_not.1 hrw, hsys⟩
      · rfl
  · rfl

theorem modbusWriteLoop_record {addr : Nat} (hw : 1 ≤ w) (hw8 : w ≤ maxWellNum) (n : Nat)
    (hl : ∀ k < n, ¬ s.map.LeadsToType w (addr + k)) :
    (modbusWriteLoop env buf bigL w addr s n).rtu.map.ramXMapRecord = s.map.ramXMapRecord := by
  induction n with
  | zero => rfl
  | succ n ih =>
      have hl' : ∀ k < n, ¬ s.map.LeadsToType w (addr + k) := fun k hk =>
        hl k (Nat.lt_succ_of_lt hk)
      have hsame : SameMapping s.map (modbusWriteLoop env buf bigL w addr s n).rtu.map :=
        modbusWriteLoop_sameMapping hw hw8 n hl'
      rw [modbusWriteLoop, WriteLoop.turn_record hw hw8 fun hlead => ?_, ih hl']
      rw [modbusWriteLoop_i] at hlead
      exact hl n (Nat.lt_succ_self n) (hsame.leadsToType hlead)

/-- A step that loads nothing leaves the marks. -/
theorem MapStep.sameMarks {s' : Rtu} {op : MapOp} (h : MapStep env s op s')
    (hload : ¬ (LifeOp.map op).Reloads s) : SameMarks s.map s'.map := by
  have hsame := LifeStep.sameMapping (.map h) trivial hload
  refine ⟨hsame.xMax, ?_, hsame.regType⟩
  cases h with
  | modbusWrite buf len wellNum addr bigL =>
      unfold mapModbusWriteRegisters modbusWriteLanded
      split
      · rename_i hok
        obtain ⟨hw8, hw, -⟩ := registerArgsOk_iff.1 hok
        exact modbusWriteLoop_record (by omega) (Int.toNat_le.2 hw8) _
          fun k hk hlead => hload ⟨hok, k, hk, hlead⟩
      · rfl
  | internalWrite buf len wellNum addr =>
      unfold zigbeeWriteRegisters
      split
      · rename_i hok
        exact writeCells_record fun h => hload ⟨hok, h.1, h.1 ▸ h.2⟩
      · rfl
  | mset v len wellNum addr =>
      unfold zigbeeWriteRegistersMset
      split <;> rfl
  | remap => exact absurd trivial hload
  | reboot => exact absurd trivial hload
  | elsewhere hm => rw [hm]

end Marks

/-! ### Recorded words into registers -/

/-- The cells marked for recording, by their indices. -/
def recordCells (m : MapT) (w n : Nat) : List Nat :=
  (List.range n).filter fun i => decide (m.ramXMapRecord (m.xBase w + i) = .record)

/-- The store loop stores the words of the marked cells, one behind the other, and does
nothing else. -/
theorem dataWriteLoop_eq (buf : Nat → UInt16) (bigL : Bool) (w addr : Nat) (s : Rtu) (n : Nat) :
    dataWriteLoop buf bigL w addr s n =
      ((recordCells s.map w n).length, s.onMap (·.putRamY w addr
        ((recordCells s.map w n).map fun i => orderWord bigL (buf i)))) := by
  induction n with
  | zero => simp [dataWriteLoop, recordCells, MapT.putRamY, Rtu.onMap]
  | succ n ih =>
      have hcells : recordCells s.map w (n + 1) = recordCells s.map w n ++
          if s.map.ramXMapRecord (s.map.xBase w + n) = .record then [n] else [] := by
        unfold recordCells
        rw [List.range_succ, List.filter_append]
        congr 1
        split <;> simp_all
      have hmark : (s.onMap (·.putRamY w addr ((recordCells s.map w n).map fun i =>
          orderWord bigL (buf i)))).map.ramXMapRecord = s.map.ramXMapRecord := rfl
      have hbase : (s.onMap (·.putRamY w addr ((recordCells s.map w n).map fun i =>
          orderWord bigL (buf i)))).map.xBase w = s.map.xBase w := rfl
      rw [dataWriteLoop, ih]
      dsimp only
      rw [hmark, hbase, hcells]
      split
      · simp only [List.length_append, List.length_singleton, List.map_append, List.map_cons,
          List.map_nil, MapT.putRamY, MapT.setRamY, Rtu.onMap, Store.put_append_singleton,
          List.length_map, Nat.add_assoc, Nat.add_comm addr]
      · simp only [List.append_nil]

/-! ### Registers of an answer -/

section Registers

variable {env : Platform} {s : Rtu} {w y : Nat} {vs : List UInt16} {rc : UInt16}

/-- A register outside the words stored reads as before. -/
theorem readRegister_putRamY_of_not_mem {i : Nat}
    (h : ¬ (yBase w + y ≤ yBase w + i ∧ yBase w + i < yBase w + y + vs.length)) :
    readRegister env (s.onMap (·.putRamY w y vs)) rc w i = readRegister env s rc w i := by
  have hy : (s.onMap (·.putRamY w y vs)).map.ramY (yBase w + i) = s.map.ramY (yBase w + i) :=
    Store.put_of_not_mem h
  unfold readRegister
  rw [hy]
  rfl

/-- An unmapped register reads as the word stored. -/
theorem readRegister_putRamY_of_mem {k : Nat} (hk : k < vs.length)
    (hnull : s.map.ramYMapType (yBase w + (y + k)) = .null) :
    readRegister env (s.onMap (·.putRamY w y vs)) rc w (y + k) = vs.getD k 0 := by
  have hy : (s.onMap (·.putRamY w y vs)).map.ramY (yBase w + (y + k)) = vs.getD k 0 := by
    rw [← Nat.add_assoc]
    exact Store.put_of_lt 0 hk
  unfold readRegister
  rw [hy, show (s.onMap (·.putRamY w y vs)).map.ramYMapType (yBase w + (y + k)) = .null from hnull]

/-- A read loop is determined by the registers it passes. -/
theorem modbusReadLoop_congr {s' : Rtu} {bigL : Bool} : ∀ {n i : Nat} {rc : UInt16},
    (∀ k < n, ∀ rc, readRegister env s rc w (i + k) = readRegister env s' rc w (i + k)) →
    modbusReadLoop env s w bigL n i rc = modbusReadLoop env s' w bigL n i rc := by
  intro n
  induction n with
  | zero => intro i rc _; rfl
  | succ n ih =>
      intro i rc h
      have h0 := h 0 (Nat.succ_pos n) rc
      rw [Nat.add_zero] at h0
      rw [modbusReadLoop, modbusReadLoop, h0]
      refine congrArg _ (ih fun k hk rc => ?_)
      have hk' := h (k + 1) (Nat.succ_lt_succ hk) rc
      rwa [show i + (k + 1) = i + 1 + k by omega] at hk'

/-- A longer read starts with a shorter one. -/
theorem modbusReadLoop_take {bigL : Bool} : ∀ {n m i : Nat} {rc : UInt16}, n ≤ m →
    (modbusReadLoop env s w bigL m i rc).take n = modbusReadLoop env s w bigL n i rc := by
  intro n
  induction n with
  | zero => intro m i rc _; rfl
  | succ n ih =>
      intro m i rc h
      obtain ⟨m, rfl⟩ := Nat.exists_eq_succ_of_ne_zero
        (Nat.ne_of_gt (Nat.lt_of_lt_of_le n.succ_pos h))
      rw [modbusReadLoop, modbusReadLoop, List.take_succ_cons, ih (Nat.le_of_succ_le_succ h)]

end Registers

/-- The registers a history answer uses are the well's own words; the offset may lead to
a cell. -/
def MapT.AnswerUnmapped (m : MapT) (w : Nat) : Prop :=
  ∀ y, 6999 ≤ y → y < maxRegisterNum → y ≠ 7004 → m.ramYMapType (yBase w + y) = .null

/-- The parameter registers hold a time and an offset. -/
def ParametersHold (env : Platform) (s : Rtu) (w : Nat) (t : Minute) (k : Nat) : Prop :=
  mapModbusReadRegisters env s 6 w 6999 false
    = some ((List.range 5).map t.bcd ++ [UInt16.ofNat k])

/-- A register of the answer reads as the word stored. -/
theorem readRegister_answer {env : Platform} {s : Rtu} {w y k : Nat} {vs : List UInt16}
    {rc : UInt16} (h : s.map.AnswerUnmapped w) (hy : 7004 < y + k) (hy' : y + k < maxRegisterNum)
    (hk : k < vs.length) :
    readRegister env (s.onMap (·.putRamY w y vs)) rc w (y + k) = vs.getD k 0 :=
  readRegister_putRamY_of_mem hk (h _ (by omega) hy' (by omega))

section Handler

variable {z : Zlib} {env : Platform} {stack : Nat → UInt16} {junk : Nat → UInt8} {w : Nat}
  {d : DataThread}

/-- The first record's time goes to its own registers. -/
theorem firstWrite_eq (hw : 1 ≤ w) (hw8 : w ≤ maxWellNum) (h : d.rtu.map.AnswerUnmapped w) :
    (mapModbusWriteRegisters env d.firstDataTime 5 w historyFirst false d.rtu).2
      = d.rtu.onMap (·.putRamY w historyFirst ((List.range 5).map d.firstDataTime)) := by
  refine mapModbusWriteRegisters_of_null (n := 5) hw hw8 (by decide) (by decide) fun k hk => ?_
  unfold historyFirst
  exact h _ (by omega) (by unfold maxRegisterNum; omega) (by omega)

/-- The words the handler looks at are those of the parameter registers. -/
theorem parameterWords_getD {t : Minute} {k : Nat} (hw : 1 ≤ w) (hw8 : w ≤ maxWellNum)
    (h : d.rtu.map.AnswerUnmapped w) (hp : ParametersHold env d.rtu w t k) {j : Nat} (hj : j < 6)
    (v : UInt16) :
    (parameterWords env w d).getD j v
      = ((List.range 5).map t.bcd ++ [UInt16.ofNat k]).getD j v := by
  have hwell : w ≤ 8 := hw8
  have hok : ∀ n : Int, 1 ≤ n → n ≤ 12 → registerArgsOk n (w : Int) 6999 = true := fun n h1 h12 =>
    registerArgsOk_iff.2 (by omega)
  unfold ParametersHold mapModbusReadRegisters at hp
  rw [if_pos (hok 6 (by decide) (by decide))] at hp
  have hloop : modbusReadLoop env d.rtu w false 6 6999 0xFFFF
      = (List.range 5).map t.bcd ++ [UInt16.ofNat k] := Option.some.inj hp
  have hwords : (parameterWords env w d).take 6
      = (List.range 5).map t.bcd ++ [UInt16.ofNat k] := by
    unfold parameterWords mapModbusReadRegisters
    rw [if_pos (hok 12 (by decide) (by decide)), firstWrite_eq hw hw8 h, ← hloop]
    refine (modbusReadLoop_take (by decide)).trans (modbusReadLoop_congr fun k hk rc => ?_)
    refine readRegister_putRamY_of_not_mem ?_
    unfold historyFirst
    simp only [List.length_map, List.length_range]
    omega
  rw [← hwords]
  simp only [List.getD_eq_getElem?_getD]
  rw [List.getElem?_take_of_lt hj]

/-- The query a request makes. -/
theorem historyQuery_eq {t : Minute} {k : Nat} (hw : 1 ≤ w) (hw8 : w ≤ maxWellNum)
    (h : d.rtu.map.AnswerUnmapped w) (hp : ParametersHold env d.rtu w t k) (hk : k < 32768) :
    (historyQuery fun j => (parameterWords env w d).getD j (stack j))
      = ⟨printMinute (bcdToInt16 (t.bcd 0)) (bcdToInt16 (t.bcd 1)) (bcdToInt16 (t.bcd 2))
          (bcdToInt16 (t.bcd 3)) (bcdToInt16 (t.bcd 4)), k⟩ := by
  have hword := fun j (hj : j < 6) v => parameterWords_getD hw hw8 h hp hj v
  have hoff : hdValue (UInt16.ofNat k) = k := by
    have hn : (UInt16.ofNat k).toNat = k := by
      rw [UInt16.toNat_ofNat']
      exact Nat.mod_eq_of_lt (Nat.lt_trans hk (by decide))
    unfold hdValue
    rw [hn, if_pos hk]
  unfold historyQuery
  dsimp only
  rw [hword 0 (by decide), hword 1 (by decide), hword 2 (by decide), hword 3 (by decide),
    hword 4 (by decide), hword 5 (by decide), ← hoff]
  rfl

end Handler

/-! ### The row behind a request -/

/-- What was filed later than a time, in order. -/
def laterThan (t : Minute) (filed : List Filing) : List Filing :=
  filed.filter fun f => decide (f.stamp.Later t)

/-- A query selects from the table as from what was filed. -/
theorem select_filed {z : Zlib} (t : Minute) (k : Nat) (filed : List Filing) :
    HistoryQuery.select ⟨printMinute (bcdToInt16 (t.bcd 0)) (bcdToInt16 (t.bcd 1))
        (bcdToInt16 (t.bcd 2)) (bcdToInt16 (t.bcd 3)) (bcdToInt16 (t.bcd 4)), k⟩
        (filed.map (Filing.row z))
      = (laterThan t filed)[k]?.map (Filing.row z) := by
  have hrow : ∀ f : Filing, ((f.row z).time.any fun text => decide (printMinute
      (bcdToInt16 (t.bcd 0)) (bcdToInt16 (t.bcd 1)) (bcdToInt16 (t.bcd 2)) (bcdToInt16 (t.bcd 3))
      (bcdToInt16 (t.bcd 4)) < text)) = decide (f.stamp.Later t) := fun f =>
    decide_eq_decide.2 (printMinute_lt_text t f.stamp)
  unfold HistoryQuery.select laterThan
  rw [List.filter_map, ← List.map_drop, List.head?_map, List.head?_drop, Int.toNat_natCast]
  simp only [Function.comp_def, hrow]

/-- A snapshot in the buffer gives its words. -/
theorem wordsOf_put {ws : List UInt16} {f : Nat → UInt8} {k : Nat} (hk : k < ws.length) :
    wordsOf (Store.put 0 (bytesOfWords ws) f) k = ws.getD k 0 := by
  obtain ⟨hlo, hhi⟩ := bytesOfWords_getD hk
  have hput : ∀ j < 2 * ws.length,
      Store.put 0 (bytesOfWords ws) f j = (bytesOfWords ws).getD j 0 := by
    intro j hj
    have hj' : j < (bytesOfWords ws).length := by rwa [bytesOfWords_length]
    have hput : Store.put 0 (bytesOfWords ws) f (0 + j) = _ := Store.put_of_lt 0 hj'
    rwa [Nat.zero_add] at hput
  unfold wordsOf
  rw [hput _ (by omega), hput _ (by omega), hlo, hhi, wordOfBytes_loByte_hiByte]

/-- zlib as far as blocks of one length go: the bound holds, and `uncompress` of a whole
blob, whatever lies behind it, gives the bytes back. -/
structure Zlib.Inverts (z : Zlib) (len : Nat) : Prop where
  bound : ∀ bytes : List UInt8, bytes.length = len →
    (z.compress bytes).length ≤ z.compressBound len
  inverts : ∀ bytes rest : List UInt8, bytes.length = len →
    z.uncompress (z.compressBound len) (z.compress bytes ++ rest) = (true, bytes)

/-- So no blob is empty: two snapshots would unpack alike. -/
theorem Zlib.Inverts.compress_ne_nil {z : Zlib} {len : Nat} (h : z.Inverts len) (hlen : 0 < len)
    {bytes : List UInt8} (hb : bytes.length = len) : z.compress bytes ≠ [] := by
  intro hnil
  have hall : ∀ other : List UInt8, other.length = len → other = bytes := by
    intro other ho
    have h1 := h.inverts bytes (z.compress other) hb
    have h2 := h.inverts other [] ho
    rw [hnil, List.nil_append] at h1
    rw [List.append_nil, h1] at h2
    exact (congrArg Prod.snd h2).symm
  have h0 := hall (List.replicate len 0) List.length_replicate
  have h1 := hall (List.replicate len 1) List.length_replicate
  have heq : List.replicate len (0 : UInt8) = List.replicate len 1 := h0.trans h1.symm
  obtain ⟨n, rfl⟩ := Nat.exists_eq_succ_of_ne_zero (Nat.ne_of_gt hlen)
  exact absurd (List.cons.inj heq).1 (by decide)

/-! ### The answer -/

section Answer

variable {z : Zlib} {env : Platform} {stack : Nat → UInt16} {junk : Nat → UInt8} {w : Nat}
  {d : DataThread} {s : Rtu}

/-- A time written among unmapped registers is stored and nothing else. -/
theorem timeWrite_eq {buf : Nat → UInt16} {y : Nat} (hw : 1 ≤ w) (hw8 : w ≤ maxWellNum)
    (h : s.map.AnswerUnmapped w) (hy : 7004 < y) (hy' : y + 5 ≤ maxRegisterNum) :
    (mapModbusWriteRegisters env buf 5 w y false s).2
      = s.onMap (·.putRamY w y ((List.range 5).map buf)) :=
  mapModbusWriteRegisters_of_null (n := 5) hw hw8 (by decide) hy'
    fun k hk => h _ (by omega) (by omega) (by omega)

/-- The recorded words are stored and nothing else. -/
theorem dataWrite_eq {buf : Nat → UInt16} {n : Nat} (hw : 1 ≤ w) (hw8 : w ≤ maxWellNum)
    (hn : 1 ≤ n) (hlen : historyData + n ≤ maxRegisterNum) :
    (mapModbusWriteDataRegisters buf n w historyData false s).2
      = s.onMap (·.putRamY w historyData ((recordCells s.map w n).map buf)) := by
  have hwell : w ≤ 8 := hw8
  unfold historyData maxRegisterNum at *
  unfold mapModbusWriteDataRegisters
  rw [if_pos (registerArgsOk_iff.2 (by omega))]
  dsimp only
  rw [Int.toNat_natCast, Int.toNat_natCast, dataWriteLoop_eq]
  rfl

/-- The registers of an answer from a row. -/
theorem historyAnswer_eq {first time data : Nat → UInt16} (hw : 1 ≤ w) (hw8 : w ≤ maxWellNum)
    (h : s.map.AnswerUnmapped w) (hn : 1 ≤ s.map.xMax)
    (hlen : historyData + s.map.xMax ≤ maxRegisterNum) :
    historyAnswer env w ⟨first, some (time, data)⟩ s =
      ((s.onMap (·.putRamY w historyFirst ((List.range 5).map first))).onMap
        (·.putRamY w historyTime ((List.range 5).map time))).onMap
          (·.putRamY w historyData ((recordCells s.map w s.map.xMax).map
            fun i => data (s.map.xBase w + i))) := by
  unfold historyAnswer
  dsimp only
  rw [timeWrite_eq hw hw8 h (by decide) (by decide)]
  have h1 :
      (s.onMap (·.putRamY w historyFirst ((List.range 5).map first))).map.AnswerUnmapped w := h
  rw [timeWrite_eq hw hw8 h1 (by decide) (by decide)]
  exact dataWrite_eq hw hw8 hn hlen

/-- An answer leaves the marks. -/
theorem historyAnswer_sameMarks (r : HistoryRecord)
    (h : 1 ≤ w → w ≤ maxWellNum → s.map.AnswerUnmapped w) :
    SameMarks s.map (historyAnswer env w r s).map := by
  have htime : ∀ (s1 : Rtu) (buf : Nat → UInt16) (y : Nat), 7004 < y → y + 5 ≤ maxRegisterNum →
      (1 ≤ w → w ≤ maxWellNum → s1.map.AnswerUnmapped w) →
      SameMarks s1.map (mapModbusWriteRegisters env buf 5 w y false s1).2.map := by
    intro s1 buf y hy hy' hun
    by_cases hw : 1 ≤ w ∧ w ≤ maxWellNum
    · rw [timeWrite_eq hw.1 hw.2 (hun hw.1 hw.2) hy hy']
      exact .putRamY _ _ _ _
    · have hno : ¬ registerArgsOk 5 (w : Int) y = true := by
        intro hok
        obtain ⟨h8, h1, -⟩ := registerArgsOk_iff.1 hok
        exact hw ⟨by omega, Int.ofNat_le.1 h8⟩
      unfold mapModbusWriteRegisters modbusWriteLanded
      rw [if_neg hno]
      exact .refl _
  have hdata : ∀ (s1 : Rtu) (buf : Nat → UInt16) (n : Int),
      SameMarks s1.map (mapModbusWriteDataRegisters buf n w historyData false s1).2.map := by
    intro s1 buf n
    unfold mapModbusWriteDataRegisters
    split
    · dsimp only
      rw [dataWriteLoop_eq]
      exact .putRamY _ _ _ _
    · exact .refl _
  -- the first record's time is written in any case, the record itself only if it is there
  have h1 := htime s r.first historyFirst (by decide) (by decide) h
  unfold historyAnswer
  dsimp only
  split
  · exact h1
  · rename_i time data _
    have h2 := htime _ time historyTime (by decide) (by decide) fun hw hw8 => by
      unfold MapT.AnswerUnmapped
      rw [h1.regType]
      exact h hw hw8
    exact (h1.trans h2).trans (hdata _ _ _)

theorem msgHandler_sameMarks (h : 1 ≤ w → w ≤ maxWellNum → d.rtu.map.AnswerUnmapped w) :
    SameMarks d.rtu.map (msgHandler z env stack junk w d).thread.rtu.map := by
  unfold msgHandler
  dsimp only
  split
  · exact historyAnswer_sameMarks _ h
  · exact historyAnswer_sameMarks _ h

@[simp] theorem msgHandler_rows :
    (msgHandler z env stack junk w d).thread.rows = d.rows := by
  unfold msgHandler
  dsimp only
  split <;> rfl

/-- A request that finds no row writes the first record's time. -/
theorem msgHandler_none (h : selectedRow env stack w d = none) :
    (msgHandler z env stack junk w d).thread.rtu
      = historyAnswer env w ⟨d.firstDataTime, none⟩ d.rtu := by
  unfold msgHandler
  rw [h]
  rfl

/-- A request whose row does not unpack does the same. -/
theorem msgHandler_unread {text : List Char} {blob : List UInt8}
    (h : selectedRow env stack w d = some ⟨some text, some blob⟩) (hne : blob ≠ [])
    (hun : (z.uncompress (z.compressBound d.tlen) (compressBufBytes junk d.tlen blob)).1 = false) :
    (msgHandler z env stack junk w d).thread.rtu
      = historyAnswer env w ⟨d.firstDataTime, none⟩ d.rtu := by
  unfold msgHandler
  simp [h, sqliteDataReadBinData_blob hne, hun]

/-- A request that finds a snapshot's row, with a blob that `uncompress` is given as a
whole, answers from the snapshot. -/
theorem msgHandler_filed {f : Filing} (h : selectedRow env stack w d = some (f.row z))
    (hx : f.map.xMax = d.rtu.map.xMax) (hz : z.Inverts d.tlen) (hpos : 0 < d.tlen)
    (hfits : (z.compress (snapshotBytes f.map)).length ≤ d.tlen) :
    (msgHandler z env stack junk w d).thread.rtu
      = historyAnswer env w ⟨d.firstDataTime, some (scanTime f.stamp.text fun k => stack (6 + k),
          wordsOf (Store.put 0 (snapshotBytes f.map) d.buf))⟩ d.rtu := by
  have hlen : (snapshotBytes f.map).length = d.tlen := by
    rw [snapshotBytes_length, hx]
    rfl
  have hne := hz.compress_ne_nil hpos hlen
  have hun : z.uncompress (z.compressBound d.tlen)
      (compressBufBytes junk d.tlen (z.compress (snapshotBytes f.map)))
        = (true, snapshotBytes f.map) := by
    unfold compressBufBytes
    rw [List.take_append, List.take_of_length_le hfits]
    exact hz.inverts _ _ hlen
  unfold msgHandler
  simp only [h, Filing.row, sqliteDataReadBinData_blob hne, hun, if_true]

end Answer

/-! ### What a run keeps -/

/-- No well type changes and no map is loaded, and a request is for a well whose answer
registers are unmapped. -/
def ArchiveOp.Stays (a : Archive) : ArchiveOp → Prop
  | .write op => ¬ (LifeOp.map op).Reloads a.thread.rtu
  | .snapshot _ => True
  | .request w => 1 ≤ w → w ≤ maxWellNum → a.thread.rtu.map.AnswerUnmapped w

/-- The table holds the rows of what was filed, over a map of the same marks. -/
structure Archive.Filed (z : Zlib) (a : Archive) : Prop where
  rows : a.thread.rows = a.filed.map (Filing.row z)
  marks : ∀ f ∈ a.filed, SameMarks f.map a.thread.rtu.map

section Runs

variable {z : Zlib} {env : Platform}

@[simp] theorem storeSnapshot_rtu (stamp : Stamp) (d : DataThread) :
    (storeSnapshot z stamp d).rtu = d.rtu := by
  unfold storeSnapshot
  dsimp only
  split
  · split <;> rfl
  · rfl

/-- What a snapshot does to the table. -/
theorem storeSnapshot_rows (stamp : Stamp) (d : DataThread) :
    (storeSnapshot z stamp d).rows =
      if (z.compress (snapshotBytes d.rtu.map)).length ≤ z.compressBound d.tlen then
        if d.Full then (d.rows ++ [Filing.row z ⟨stamp, d.rtu.map⟩]).drop maxHDataDelItemLen
        else d.rows ++ [Filing.row z ⟨stamp, d.rtu.map⟩]
      else d.rows := by
  unfold storeSnapshot
  dsimp only
  split
  · rename_i h
    refine Eq.trans ?_ (if_pos h).symm
    split
    · rename_i hfull
      exact (if_pos hfull).symm
    · rename_i hfull
      exact (if_neg hfull).symm
  · rename_i h
    exact (if_neg h).symm

/-- A step files what it adds to the table. -/
theorem ArchiveStep.filed {a a' : Archive} {op : ArchiveOp} (h : ArchiveStep z env a op a')
    (hop : op.Stays a) (ha : a.Filed z) :
    a'.Filed z ∧ SameMarks a.thread.rtu.map a'.thread.rtu.map := by
  cases h with
  | write hstep =>
      have hmarks := hstep.sameMarks hop
      exact ⟨⟨ha.rows, fun f hf => (ha.marks f hf).trans hmarks⟩, hmarks⟩
  | request stack junk well =>
      have hmarks : SameMarks a.thread.rtu.map
          (msgHandler z env stack junk well a.thread).thread.rtu.map := msgHandler_sameMarks hop
      exact ⟨⟨msgHandler_rows.trans ha.rows, fun f hf => (ha.marks f hf).trans hmarks⟩, hmarks⟩
  | snapshot stamp =>
      have hnew : ∀ f ∈ a.filed ++ [⟨stamp, a.thread.rtu.map⟩],
          SameMarks f.map a.thread.rtu.map := by
        intro f hf
        rcases List.mem_append.1 hf with hf | hf
        · exact ha.marks f hf
        · obtain rfl := List.mem_singleton.1 hf
          exact .refl _
      -- stored with the oldest dropped, stored, or not compressed into the buffer
      unfold Archive.snapshot
      refine ⟨⟨?_, fun f hf => ?_⟩, ?_⟩
      · dsimp only
        rw [storeSnapshot_rows, ha.rows]
        split
        · split
          · simp
          · simp
        · rfl
      · dsimp only at hf ⊢
        rw [storeSnapshot_rtu]
        split at hf
        · split at hf
          · exact hnew f (List.mem_of_mem_drop hf)
          · exact hnew f hf
        · exact ha.marks f hf
      · dsimp only
        rw [storeSnapshot_rtu]
        exact .refl _

theorem steps_filed {a0 a : Archive}
    (h : Steps (guarded (fun a op => op.Stays a) (ArchiveStep z env)) a0 a) (h0 : a0.Filed z) :
    a.Filed z ∧ SameMarks a0.thread.rtu.map a.thread.rtu.map := by
  induction h with
  | refl => exact ⟨h0, .refl _⟩
  | tail _ hstep ih =>
      obtain ⟨op, hop, hstep⟩ := hstep
      obtain ⟨ha, hmarks⟩ := ih
      obtain ⟨ha', hmarks'⟩ := hstep.filed hop ha
      exact ⟨ha', hmarks.trans hmarks'⟩

end Runs

/-- The row behind a request is that of the filing asked for. -/
theorem Archive.Filed.selectedRow {z : Zlib} {env : Platform} {a : Archive} (ha : a.Filed z)
    (stack : Nat → UInt16) {w k : Nat} {t : Minute} (hw : 1 ≤ w) (hw8 : w ≤ maxWellNum)
    (hun : a.thread.rtu.map.AnswerUnmapped w) (hp : ParametersHold env a.thread.rtu w t k)
    (hk : k < 32768) :
    selectedRow env stack w a.thread = (laterThan t a.filed)[k]?.map (Filing.row z) := by
  unfold RtuA118.selectedRow
  rw [historyQuery_eq hw hw8 hun hp hk, ha.rows, select_filed]

/-! ### A stored block -/

/-- The checksum at the end of a zlib stream. -/
def adler32 (bytes : List UInt8) : List UInt8 :=
  let (a, b) := bytes.foldl (fun (a, b) x =>
    ((a + x.toNat) % 65521, (b + (a + x.toNat) % 65521) % 65521)) (1, 0)
  [.ofNat (b / 256), .ofNat b, .ofNat (a / 256), .ofNat a]

/-- The start of a zlib stream of one stored block: the stream's header, the block's
type, its length and the complement of its length. -/
def storedHeader (len : Nat) : List UInt8 :=
  [0x78, 0x9C, 0x01, .ofNat len, .ofNat (len / 256), .ofNat (65535 - len),
    .ofNat ((65535 - len) / 256)]

/-- What `compress` makes of bytes that do not compress. -/
def storedStream (bytes : List UInt8) : List UInt8 :=
  storedHeader bytes.length ++ (bytes ++ adler32 bytes)

/-- What `uncompress` makes of such a stream. -/
def unstore (cap : Nat) (src : List UInt8) : Bool × List UInt8 :=
  let len := (src.getD 3 0).toNat + 256 * (src.getD 4 0).toNat
  let out := ((src.drop 7).take len).take cap
  if src.take 7 = storedHeader len then
    (decide (out.length = len ∧ (src.drop (7 + len)).take 4 = adler32 out), out)
  else (false, [])

section Stored

variable {bytes : List UInt8} {cap : Nat}

@[simp] theorem storedHeader_length (len : Nat) : (storedHeader len).length = 7 := rfl

@[simp] theorem adler32_length (bytes : List UInt8) : (adler32 bytes).length = 4 := rfl

@[simp] theorem storedStream_length (bytes : List UInt8) :
    (storedStream bytes).length = bytes.length + 11 := by
  simp [storedStream]
  omega

/-- The length in a header. -/
theorem storedHeader_len {len : Nat} (h : len < 65536) (rest : List UInt8) :
    ((storedHeader len ++ rest).getD 3 0).toNat
      + 256 * ((storedHeader len ++ rest).getD 4 0).toNat = len := by
  simp [storedHeader]
  omega

@[simp] theorem take_storedHeader (len : Nat) (rest : List UInt8) :
    (storedHeader len ++ rest).take 7 = storedHeader len := rfl

@[simp] theorem drop_storedHeader (len : Nat) (rest : List UInt8) :
    (storedHeader len ++ rest).drop 7 = rest := rfl

/-- A stored block is read back, whatever lies behind it. -/
theorem unstore_storedStream (h : bytes.length < 65536) (hcap : bytes.length ≤ cap)
    (rest : List UInt8) : unstore cap (storedStream bytes ++ rest) = (true, bytes) := by
  unfold unstore storedStream
  simp only [List.append_assoc, storedHeader_len h, take_storedHeader, drop_storedHeader,
    ← List.drop_drop, if_true, List.take_left, List.drop_left, List.take_of_length_le hcap]
  rw [List.take_left' (adler32_length bytes)]
  simp

/-- Of the front of one, no longer than its bytes, some are missing. -/
theorem unstore_front (h : bytes.length < 65536) (h7 : 7 ≤ bytes.length) :
    (unstore cap ((storedStream bytes).take bytes.length)).1 = false := by
  have hfront : (storedStream bytes).take bytes.length
      = storedHeader bytes.length ++ bytes.take (bytes.length - 7) := by
    unfold storedStream
    rw [List.take_append, List.take_of_length_le (by simpa using h7), storedHeader_length,
      List.take_append_of_le_length (Nat.sub_le _ _)]
  unfold unstore
  rw [hfront]
  simp only [storedHeader_len h, take_storedHeader, drop_storedHeader, if_true]
  rw [decide_eq_false]
  simp only [List.length_take]
  omega

end Stored

/-! ### Two snapshots -/

/-- A snapshot of zeros, and what `compress` makes of it. -/
def zeroBytes : List UInt8 := List.replicate 4800 0

def zeroStream : List UInt8 :=
  [120, 156, 237, 193, 49, 1, 0, 0, 0, 194, 160, 245, 79, 109, 13, 15, 160, 0, 0, 0, 0, 224, 215, 0,
    18, 192, 0, 1]

/-- zlib on snapshots of 300 words a well, of zeros or of words that do not compress. -/
def sampleZlib : Zlib where
  compressBound n := n + n / 4096 + n / 16384 + n / 33554432 + 13
  compress bytes := if bytes = zeroBytes then zeroStream else storedStream bytes
  uncompress cap src :=
    if zeroStream <+: src then (decide (zeroBytes.length ≤ cap), zeroBytes.take cap)
    else unstore cap src

theorem not_zeroStream_storedStream (bytes rest : List UInt8) :
    ¬ zeroStream <+: storedStream bytes ++ rest := by
  rintro ⟨_, h⟩
  have h2 : (237 : UInt8) = 1 := congrArg (fun l : List UInt8 => l.getD 2 0) h
  exact absurd h2 (by decide)

theorem sampleZlib_inverts : sampleZlib.Inverts 4800 where
  bound bytes hlen := by
    unfold sampleZlib
    dsimp only
    split
    · decide
    · simp [hlen]
  inverts bytes rest hlen := by
    have hcap : bytes.length ≤ sampleZlib.compressBound 4800 := by
      rw [hlen]
      decide
    unfold sampleZlib at hcap ⊢
    dsimp only at hcap ⊢
    split
    · rename_i hzero
      rw [if_pos (List.prefix_append _ _), ← hzero, List.take_of_length_le hcap,
        decide_eq_true hcap]
    · rw [if_neg (not_zeroStream_storedStream _ _), unstore_storedStream (by omega) hcap]

/-- A unit that records every cell. Its parameter registers ask for the first row after
midnight. -/
def recordingUnit (ramX : Nat → UInt16) : Rtu :=
  .start { emptyMap 300 (fun _ => 0) (fun _ => 0) with
    ramX := ramX
    ramXMapRecord := fun _ => .record
    ramY := Store.put 6999 [0x2015, 1, 1, 0, 0, 0] fun _ => 0xFFFF }

def midnight : Minute where
  year := 2015
  month := 1
  day := 1
  hour := 0
  minute := 0
  year_lt := by decide
  month_lt := by decide
  day_lt := by decide
  hour_lt := by decide
  minute_lt := by decide

def noon : Stamp where
  toMinute := { midnight with hour := 12, hour_lt := by decide }
  second := 30
  second_lt := by decide

/-- An empty table, and one with a snapshot of noon. -/
def newArchive (ramX : Nat → UInt16) : Archive where
  thread := { idleThread with rtu := recordingUnit ramX }
  filed := []

def noonArchive (ramX : Nat → UInt16) : Archive := (newArchive ramX).snapshot sampleZlib noon

section Samples

variable {ramX : Nat → UInt16}

theorem recordingUnit_parameters :
    ParametersHold (.bare fun _ => none) (recordingUnit ramX) 1 midnight 0 := rfl

theorem recordingUnit_answerUnmapped (w : Nat) : (recordingUnit ramX).map.AnswerUnmapped w :=
  fun _ _ _ _ => rfl

theorem noonArchive_rtu : (noonArchive ramX).thread.rtu = recordingUnit ramX := by
  unfold noonArchive Archive.snapshot
  dsimp only
  rw [storeSnapshot_rtu]
  rfl

theorem recordingUnit_length : (snapshotBytes (recordingUnit ramX).map).length = 4800 := by
  have hx : (recordingUnit ramX).map.xMax = 300 := rfl
  rw [snapshotBytes_length, hx, maxWellNum]

theorem newArchive_tlen : (newArchive ramX).thread.tlen = 4800 := by
  have hx : (newArchive ramX).thread.rtu.map.xMax = 300 := rfl
  rw [DataThread.tlen, hx, maxWellNum]

theorem newArchive_not_full : ¬ (newArchive ramX).thread.Full :=
  show ¬ ((0 : Int) + 1 > 8000) by decide

theorem noonArchive_tlen : (noonArchive ramX).thread.tlen = 4800 := by
  rw [← newArchive_tlen, DataThread.tlen, noonArchive_rtu]
  rfl

theorem noonArchive_filed : (noonArchive ramX).filed = [⟨noon, (recordingUnit ramX).map⟩] := by
  have hbound : (sampleZlib.compress (snapshotBytes (newArchive ramX).thread.rtu.map)).length
      ≤ sampleZlib.compressBound (newArchive ramX).thread.tlen := by
    rw [newArchive_tlen]
    exact sampleZlib_inverts.bound _ recordingUnit_length
  unfold noonArchive Archive.snapshot
  dsimp only
  rw [if_pos hbound, if_neg newArchive_not_full]
  rfl

/-- The row of noon is the one asked for. -/
theorem laterThan_noonArchive :
    (laterThan midnight (noonArchive ramX).filed)[0]? = some ⟨noon, (recordingUnit ramX).map⟩ := by
  have hlater : noon.Later midnight := by decide
  rw [noonArchive_filed]
  simp [laterThan, hlater]

theorem noonArchive_run (env : Platform) :
    Steps (guarded (fun a op => op.Stays a) (ArchiveStep sampleZlib env)) (newArchive ramX)
      (noonArchive ramX) :=
  .one (a := .snapshot noon) ⟨trivial, .snapshot _ _⟩

theorem newArchive_filed : (newArchive ramX).Filed sampleZlib :=
  ⟨rfl, fun _ hf => absurd hf List.not_mem_nil⟩

end Samples

theorem snapshotBytes_zeros : snapshotBytes (recordingUnit fun _ => 0).map = zeroBytes := by
  have hzeros : ∀ n, bytesOfWords (List.replicate n 0) = List.replicate (2 * n) 0 := by
    intro n
    induction n with
    | zero => rfl
    | succ n ih =>
        rw [List.replicate_succ, bytesOfWords_cons, ih]
        rfl
  have hrecord : historyRecord (recordingUnit fun _ => 0).map = List.replicate 2400 0 := by
    unfold historyRecord
    refine List.eq_replicate_iff.2 ⟨by rw [List.length_map, List.length_range]; rfl, ?_⟩
    intro v hv
    obtain ⟨_, _, rfl⟩ := List.mem_map.1 hv
    rfl
  unfold snapshotBytes
  rw [hrecord, hzeros]
  rfl

/-! ### Retrieval -/

/-- The registers of the well give what was filed: the words of its recorded cells, in
the order of their indices, and the time. -/
def Retrieved (env : Platform) (w : Nat) (f : Filing) (s : Rtu) : Prop :=
  (∀ j i, (recordCells f.map w f.map.xMax)[j]? = some i → ∀ rc,
      readRegister env s rc w (historyData + j) = f.map.ramX (f.map.xBase w + i)) ∧
    ∀ j < 5, ∀ rc, readRegister env s rc w (historyTime + j) = f.stamp.toMinute.bcd j

theorem recordCells_congr {m m' : MapT} (h : SameMarks m m') (w : Nat) :
    recordCells m' w m'.xMax = recordCells m w m.xMax := by
  unfold recordCells MapT.xBase
  rw [h.record, h.xMax]

theorem mem_recordCells {m : MapT} {w n i : Nat} (h : i ∈ recordCells m w n) : i < n :=
  List.mem_range.1 (List.mem_of_mem_filter h)

theorem recordCells_length_le (m : MapT) (w n : Nat) : (recordCells m w n).length ≤ n := by
  unfold recordCells
  simpa using List.length_filter_le _ (List.range n)

/-- The words of a snapshot's buffer. -/
theorem wordsOf_snapshot {m : MapT} {buf : Nat → UInt8} {w i : Nat} (hw : 1 ≤ w)
    (hw8 : w ≤ maxWellNum) (hi : i < m.xMax) :
    wordsOf (Store.put 0 (snapshotBytes m) buf) (m.xBase w + i) = m.ramX (m.xBase w + i) := by
  have hlt := xBase_add_lt hw hw8 hi
  unfold snapshotBytes
  rw [wordsOf_put (by rwa [historyRecord_length]), historyRecord_getD hlt]

/-- An answer from a snapshot gives it. -/
theorem retrieved_historyAnswer {env : Platform} {f : Filing} {s : Rtu} {w : Nat}
    {first stale : Nat → UInt16} {buf : Nat → UInt8} (hmarks : SameMarks f.map s.map) (hw : 1 ≤ w)
    (hw8 : w ≤ maxWellNum) (h : s.map.AnswerUnmapped w) (hn : 1 ≤ s.map.xMax)
    (hlen : historyData + s.map.xMax ≤ maxRegisterNum) :
    Retrieved env w f (historyAnswer env w ⟨first, some (scanTime f.stamp.text stale,
      wordsOf (Store.put 0 (snapshotBytes f.map) buf))⟩ s) := by
  have hbase : s.map.xBase w = f.map.xBase w := congrArg (· * (w - 1)) hmarks.xMax
  have hd : historyData = 7019 := rfl
  have ht : historyTime = 7014 := rfl
  have hmax : maxRegisterNum = 10000 := rfl
  have hx := hmarks.xMax
  rw [historyAnswer_eq hw hw8 h hn hlen, recordCells_congr hmarks]
  obtain ⟨s1, hs1, h1⟩ : ∃ s1, s1 = s.onMap (·.putRamY w historyFirst ((List.range 5).map first)) ∧
      s1.map.AnswerUnmapped w := ⟨_, rfl, h⟩
  rw [← hs1]
  obtain ⟨s2, hs2, h2⟩ : ∃ s2, s2 = s1.onMap (·.putRamY w historyTime
      ((List.range 5).map (scanTime f.stamp.text stale))) ∧ s2.map.AnswerUnmapped w := ⟨_, rfl, h1⟩
  rw [← hs2]
  constructor
  · intro j i hj rc
    obtain ⟨hlt, hget⟩ := List.getElem?_eq_some_iff.1 hj
    have hi : i < f.map.xMax := mem_recordCells (List.mem_of_getElem? hj)
    have hcount := recordCells_length_le f.map w f.map.xMax
    rw [readRegister_answer h2 (by omega) (by omega) (by simpa using hlt)]
    simp [hlt, hget, hbase, wordsOf_snapshot hw hw8 hi]
  · intro j hj rc
    rw [readRegister_putRamY_of_not_mem (by omega), hs2,
      readRegister_answer h1 (by omega) (by omega) (by simpa using hj)]
    simp [hj, scanTime_text]

/-- **History retrieval.** After any run, a request for a time and an offset gives the
snapshot that was filed so far behind the time, if its blob is no longer than a
snapshot; where nothing was, it leaves the registers of the answer alone. -/
theorem history_retrieval (z : Zlib) (env : Platform) (a0 a : Archive)
    (hz : z.Inverts a0.thread.tlen) (hpos : 1 ≤ a0.thread.rtu.map.xMax)
    (hroom : a0.thread.rtu.map.xMax + historyData ≤ maxRegisterNum) (hfiled : a0.Filed z)
    (hrun : Steps (guarded (fun a op => op.Stays a) (ArchiveStep z env)) a0 a) (w : Nat)
    (t : Minute) (k : Nat) (stack : Nat → UInt16) (junk : Nat → UInt8) (hw : 1 ≤ w)
    (hw8 : w ≤ maxWellNum) (hk : k < 32768) (hun : a.thread.rtu.map.AnswerUnmapped w)
    (hp : ParametersHold env a.thread.rtu w t k)
    (hfits : ∀ f, (laterThan t a.filed)[k]? = some f →
      (z.compress (snapshotBytes f.map)).length ≤ a.thread.tlen) :
    (∀ f, (laterThan t a.filed)[k]? = some f →
        Retrieved env w f (msgHandler z env stack junk w a.thread).thread.rtu) ∧
      ((laterThan t a.filed)[k]? = none → ∀ y, historyTime ≤ y → ∀ rc,
        readRegister env (msgHandler z env stack junk w a.thread).thread.rtu rc w y
          = readRegister env a.thread.rtu rc w y) := by
  obtain ⟨ha, hmarks⟩ := steps_filed hrun hfiled
  have hx := hmarks.xMax
  have htlen : a.thread.tlen = a0.thread.tlen := by
    unfold DataThread.tlen
    rw [hx]
  have hsel := ha.selectedRow stack hw hw8 hun hp hk
  constructor
  · intro f hf
    rw [hf, Option.map_some] at hsel
    have hfm := ha.marks f (List.mem_of_mem_filter (List.mem_of_getElem? hf))
    rw [msgHandler_filed hsel hfm.xMax.symm (htlen ▸ hz) (by
      unfold DataThread.tlen maxWellNum
      omega) (hfits f hf)]
    exact retrieved_historyAnswer hfm hw hw8 hun (hx ▸ hpos) (by rw [hx]; omega)
  · -- nothing is later: only the first record's time is written
    intro hnone y hy rc
    rw [hnone, Option.map_none] at hsel
    unfold historyTime at hy
    rw [msgHandler_none hsel]
    unfold historyAnswer
    dsimp only
    rw [timeWrite_eq hw hw8 hun (by decide) (by decide)]
    refine readRegister_putRamY_of_not_mem ?_
    unfold historyFirst
    simp
    omega

/-- Zeros compress, and are given back. -/
theorem zeros_history_retrieval :
    Retrieved (.bare fun _ => none) 1 ⟨noon, (recordingUnit fun _ => 0).map⟩
      (msgHandler sampleZlib (.bare fun _ => none) (fun _ => 0) (fun _ => 0) 1
        (noonArchive fun _ => 0).thread).thread.rtu := by
  refine (history_retrieval sampleZlib (.bare fun _ => none) (newArchive fun _ => 0)
    (noonArchive fun _ => 0) (newArchive_tlen ▸ sampleZlib_inverts) (by decide) (by decide)
    newArchive_filed (noonArchive_run _) 1 midnight 0 (fun _ => 0) (fun _ => 0) (by decide)
    (by decide) (by decide) ?_ ?_ fun f hf => ?_).1 _ laterThan_noonArchive
  · rw [noonArchive_rtu]
    exact recordingUnit_answerUnmapped 1
  · rw [noonArchive_rtu]
    exact recordingUnit_parameters
  · obtain rfl := Option.some.inj (laterThan_noonArchive.symm.trans hf)
    have hblob :
        sampleZlib.compress (snapshotBytes (recordingUnit fun _ => 0).map) = zeroStream := by
      unfold sampleZlib
      dsimp only
      rw [if_pos snapshotBytes_zeros]
    rw [hblob, noonArchive_tlen]
    decide

/-- Words that do not compress. -/
def noise (k : Nat) : UInt16 := UInt16.ofNat ((40503 * (k * k) + 12345 * k + 977) / 16)

/-- Their blob is longer than the snapshot, and `uncompress` is given its front. -/
theorem noise_not_unpacked (cap : Nat) (junk : Nat → UInt8) :
    (sampleZlib.uncompress cap (compressBufBytes junk 4800
      (sampleZlib.compress (snapshotBytes (recordingUnit noise).map)))).1 = false := by
  obtain ⟨bytes, hbytes⟩ : ∃ bytes, bytes = snapshotBytes (recordingUnit noise).map := ⟨_, rfl⟩
  have hlen : bytes.length = 4800 := hbytes ▸ recordingUnit_length
  have hne : bytes ≠ zeroBytes := by
    have hfirst : bytes.getD 0 0 = 61 := by
      have hpos : 0 < (recordingUnit noise).map.xMax * maxWellNum := by decide
      have hlo : bytes.getD (2 * 0) 0 = loByte (noise 0) := by
        rw [hbytes, snapshotBytes, (bytesOfWords_getD (by rwa [historyRecord_length])).1,
          historyRecord_getD hpos]
        rfl
      exact hlo.trans (by decide)
    rintro rfl
    exact absurd hfirst (by decide)
  have hblob : sampleZlib.compress bytes = storedStream bytes := if_neg hne
  have hfront : compressBufBytes junk 4800 (storedStream bytes)
      = (storedStream bytes).take bytes.length := by
    unfold compressBufBytes
    rw [hlen, List.take_append_of_le_length (by simp [hlen])]
  rw [← hbytes, hblob, hfront]
  unfold sampleZlib
  dsimp only
  rw [if_neg, unstore_front (by omega) (by omega)]
  intro hprefix
  refine not_zeroStream_storedStream bytes [] ?_
  rw [List.append_nil]
  exact hprefix.trans (List.take_prefix _ _)

/-- They are not: the registers of the time stay as they were. -/
theorem not_history_retrieval : ¬ ∀ (z : Zlib) (env : Platform) (a0 a : Archive),
    z.Inverts a0.thread.tlen → 1 ≤ a0.thread.rtu.map.xMax →
    a0.thread.rtu.map.xMax + historyData ≤ maxRegisterNum → a0.Filed z →
    Steps (guarded (fun a op => op.Stays a) (ArchiveStep z env)) a0 a →
    ∀ (w : Nat) (t : Minute) (k : Nat) (stack : Nat → UInt16) (junk : Nat → UInt8), 1 ≤ w →
    w ≤ maxWellNum → k < 32768 → a.thread.rtu.map.AnswerUnmapped w →
    ParametersHold env a.thread.rtu w t k →
    (∀ f, (laterThan t a.filed)[k]? = some f →
        Retrieved env w f (msgHandler z env stack junk w a.thread).thread.rtu) ∧
      ((laterThan t a.filed)[k]? = none → ∀ y, historyTime ≤ y → ∀ rc,
        readRegister env (msgHandler z env stack junk w a.thread).thread.rtu rc w y
          = readRegister env a.thread.rtu rc w y) := by
  intro h
  have hretrieved := (h sampleZlib (.bare fun _ => none) (newArchive noise) (noonArchive noise)
    (newArchive_tlen ▸ sampleZlib_inverts) (by decide) (by decide) newArchive_filed
    (noonArchive_run _) 1 midnight 0 (fun _ => 0) (fun _ => 0) (by decide) (by decide) (by decide)
    (noonArchive_rtu ▸ recordingUnit_answerUnmapped 1)
    (noonArchive_rtu ▸ recordingUnit_parameters)).1 _ laterThan_noonArchive
  have htime := hretrieved.2 0 (by decide) 0
  have hfiled : (noonArchive noise).Filed sampleZlib :=
    (steps_filed (noonArchive_run (.bare fun _ => none)) newArchive_filed).1
  have hrow := hfiled.selectedRow (fun _ => 0) (w := 1) (k := 0) (by decide) (by decide)
    (noonArchive_rtu ▸ recordingUnit_answerUnmapped 1)
    (noonArchive_rtu ▸ recordingUnit_parameters) (by decide)
  rw [laterThan_noonArchive, Option.map_some] at hrow
  rw [msgHandler_unread hrow (sampleZlib_inverts.compress_ne_nil (by decide) recordingUnit_length)
    (noonArchive_tlen ▸ noise_not_unpacked _ _), noonArchive_rtu] at htime
  exact absurd htime (by decide)

end RtuA118
