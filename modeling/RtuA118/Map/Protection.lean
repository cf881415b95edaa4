import RtuA118.Lib.Run
import RtuA118.Map.RegisterFile
import RtuA118.Modbus.Reply

/-!
# RtuA118.Map.Protection

Read-only registers under external requests.

The write loop tests the read-only mark of the cell a register leads to. A cell has
other ways to change: the shared flash is written through every well, and the cells
with code behind them (`FunctionIndex`) store into the second flash of well 1 and
into `ram_x`. `Protected` says that none of these reaches the register's word, and
`protected_run` that then no run of requests changes what is read there, as long as
none of them writes the well type.
-/

namespace RtuA118

open Run (Steps guarded)

/-! ### Protected registers -/

/-- The function-mapped indices of `map.h`. -/
def FunctionIndex (i : Nat) : Prop :=
  i = mapChangeWellType ∨ i = mapGetRtuVer ∨ (mapGetTimeHour ≤ i ∧ i ≤ mapGetTimeDay) ∨
    i = mapGetBatteryVoltage ∨ i = mapConfig1 ∨ (mapGetMac0 ≤ i ∧ i < mapGetMac0 + 6) ∨
    i = mapConfig2ElecInterv ∨ i = mapConfig2ActInterv ∨ (mapGetDI0 ≤ i ∧ i < mapGetDI0 + 8) ∨
    (mapGetDO0 ≤ i ∧ i < mapGetDO0 + 8) ∨ i = mapGetHistory

instance (i : Nat) : Decidable (FunctionIndex i) := inferInstanceAs (Decidable (_ ∨ _))

/-- No well has a register that leads to index `i` for reading and writing. -/
def MapT.NeverMappedRw (m : MapT) (i : Nat) : Prop :=
  ∀ w y, 1 ≤ w → w ≤ maxWellNum → y < maxRegisterNum → m.ramYMapType (yBase w + y) = .ram →
    m.cellOf w y = i → m.ramXMapRw (m.xBase w + i) ≠ .rw

/-- The register leads to a read-only cell that is in RAM or the second flash, or in
the first flash under an index no well may write. -/
structure Protected (m : MapT) (w y : Nat) : Prop where
  mapped : m.ramYMapType (yBase w + y) = .ram
  readOnly : m.ramXMapRw (m.xBase w + m.cellOf w y) ≠ .rw
  plain : (m.ramXMapType (m.xBase w + m.cellOf w y)).Plain
  shared : m.ramXMapType (m.xBase w + m.cellOf w y) = .flash1 → m.NeverMappedRw (m.cellOf w y)
  notFunction : ¬ FunctionIndex (m.cellOf w y)

theorem SameMapping.neverMappedRw {m m' : MapT} {i : Nat} (h : SameMapping m m')
    (hi : m.NeverMappedRw i) : m'.NeverMappedRw i := by
  intro w y hw hw8 hy hr hc
  rw [h.regType] at hr
  rw [h.cellOf hr] at hc
  rw [h.cellRw, h.xBase]
  exact hi w y hw hw8 hy hr hc

theorem SameMapping.protected {m m' : MapT} {w y : Nat} (h : SameMapping m m')
    (hp : Protected m w y) : Protected m' w y := by
  have hcell := h.cellOf hp.mapped
  refine ⟨h.regType ▸ hp.mapped, ?_, ?_, fun hk => ?_, ?_⟩
  · rw [h.cellRw, h.xBase, hcell]
    exact hp.readOnly
  · rw [h.cellType, h.xBase, hcell]
    exact hp.plain
  · rw [h.cellType, h.xBase, hcell] at hk
    rw [hcell]
    exact h.neverMappedRw (hp.shared hk)
  · rw [hcell]
    exact hp.notFunction

/-! ### One register of a request -/

section Turn

variable {env : Platform} {buf : Nat → UInt16} {bigL : Bool} {w w' y : Nat} {c : WriteLoop}

/-- A register's write that does not lead to the well type keeps the mapping. -/
theorem WriteLoop.sameMapping_turn (h0 : c.rtu.map.ramYMapType (yBase w' + c.i) = .ram →
    c.rtu.map.cellOf w' c.i ≠ mapChangeWellType) (hw' : 1 ≤ w') (hw8' : w' ≤ maxWellNum) :
    SameMapping c.rtu.map (c.turn env buf bigL w').rtu.map := by
  unfold WriteLoop.turn
  dsimp only
  split
  · rename_i hnull
    exact .setRamY (by simp [hnull])
  · rename_i hram
    split
    · exact .refl _
    · dsimp only
      rw [zigbeeWriteRegisters_one hw' hw8']
      split
      · exact .of_tables (writeCell_tables_of_ne fun _ => h0 hram)
      · exact .refl _
  · exact .refl _

/-- A cell's write leaves the word of a protected register of another cell. -/
theorem writeCell_wordAt {s : Rtu} {x : Nat} {v : UInt16} (h0 : x ≠ mapChangeWellType)
    (hint : s.map.Integrity) (hw : 1 ≤ w) (hw8 : w ≤ maxWellNum) (hy : y < maxRegisterNum)
    (hx : x < s.map.xMax) (hrw : s.map.ramXMapRw (s.map.xBase w' + x) = .rw)
    (hother : s.map.ramXMapType (s.map.xBase w + s.map.cellOf w y) = .flash1 →
      s.map.cellOf w y ≠ x)
    (hp : Protected s.map w y) :
    (writeCell env w' x v s).2.map.wordAt (s.map.storageOf w y)
      = s.map.wordAt (s.map.storageOf w y) := by
  have hi := hint.inside w y hw hw8 hy hp.mapped
  have ht : (writeCell env w' x v s).2.map.tables = s.map.tables :=
    writeCell_tables_of_ne fun _ => h0
  unfold MapT.storageOf MapT.cellStorage
  rw [if_pos hp.mapped]
  by_cases hk : s.map.ramXMapType (s.map.xBase w + s.map.cellOf w y) = .flash1
  · rw [if_pos hk]
    exact writeCell_flash1_of_ne (fun _ => h0) fun _ => hother hk
  · -- the two cells differ by their read-only marks
    have hne : s.map.xBase w + s.map.cellOf w y ≠ s.map.xBase w' + x := by
      intro heq
      rw [← heq] at hrw
      exact hp.readOnly hrw
    rw [if_neg hk, MapT.wordAt, MapT.wordAt, ramXMapType_eq_of_tables ht, xBase_eq_of_tables ht,
      writeCell_ramX_of_ne (fun _ => h0) hne]
    congr 1
    refine writeCell_flash2_of_ne (fun _ => h0) hne fun hlo hhi heq => hp.notFunction ?_
    obtain ⟨-, hix⟩ := (MapT.xBase_add_inj hw (Nat.le_refl 1) hi hx).1 heq
    unfold FunctionIndex
    rw [hix]
    tauto

/-- **No other route**: a register's write leaves the word of a protected register. -/
theorem WriteLoop.wordAt_turn (h0 : c.rtu.map.ramYMapType (yBase w' + c.i) = .ram →
      c.rtu.map.cellOf w' c.i ≠ mapChangeWellType)
    (hint : c.rtu.map.Integrity) (hw : 1 ≤ w) (hw8 : w ≤ maxWellNum) (hy : y < maxRegisterNum)
    (hw' : 1 ≤ w') (hw8' : w' ≤ maxWellNum) (hi : c.i < maxRegisterNum)
    (hp : Protected c.rtu.map w y) :
    (c.turn env buf bigL w').rtu.map.wordAt (c.rtu.map.storageOf w y)
      = c.rtu.map.wordAt (c.rtu.map.storageOf w y) := by
  unfold WriteLoop.turn
  dsimp only
  split
  · unfold MapT.storageOf MapT.cellStorage
    rw [if_pos hp.mapped]
    split <;> rfl
  · rename_i hram
    split
    · rfl
    · rename_i hrw
      dsimp only
      rw [zigbeeWriteRegisters_one hw' hw8']
      split
      · rename_i hx
        refine writeCell_wordAt (h0 hram) hint hw hw8 hy hx (not_not.1 hrw) (fun hk heq => ?_) hp
        have hnever := hp.shared hk
        rw [heq] at hnever
        exact hnever w' c.i hw' hw8' hi hram rfl (not_not.1 hrw)
      · rfl
  · rfl

end Turn

/-! ### A request -/

section Request

variable {env : Platform} {buf : Nat → UInt16} {bigL : Bool} {w w' y addr : Nat} {s : Rtu}

/-- The write loop, turn by turn. -/
theorem modbusWriteLoop_protected (hint : s.map.Integrity) (hw : 1 ≤ w) (hw8 : w ≤ maxWellNum)
    (hy : y < maxRegisterNum) (hw' : 1 ≤ w') (hw8' : w' ≤ maxWellNum) (hp : Protected s.map w y)
    (n : Nat) (hrange : addr + n ≤ maxRegisterNum)
    (h0 : ∀ k < n, s.map.ramYMapType (yBase w' + (addr + k)) = .ram →
      s.map.cellOf w' (addr + k) ≠ mapChangeWellType) :
    SameMapping s.map (modbusWriteLoop env buf bigL w' addr s n).rtu.map ∧
      (modbusWriteLoop env buf bigL w' addr s n).rtu.map.wordAt (s.map.storageOf w y)
        = s.map.wordAt (s.map.storageOf w y) := by
  induction n with
  | zero => exact ⟨.refl _, rfl⟩
  | succ n ih =>
      obtain ⟨hsame, hword⟩ := ih (by omega) fun k hk => h0 k (by omega)
      have hi := modbusWriteLoop_i env buf bigL w' addr s n
      have h0' : (modbusWriteLoop env buf bigL w' addr s n).rtu.map.ramYMapType
            (yBase w' + (modbusWriteLoop env buf bigL w' addr s n).i) = .ram →
          (modbusWriteLoop env buf bigL w' addr s n).rtu.map.cellOf w'
            (modbusWriteLoop env buf bigL w' addr s n).i ≠ mapChangeWellType := by
        intro hram
        rw [hi, hsame.regType] at hram
        rw [hi, hsame.cellOf hram]
        exact h0 n (Nat.lt_succ_self n) hram
      have hturn :
          ((modbusWriteLoop env buf bigL w' addr s n).turn env buf bigL w').rtu.map.wordAt _ = _ :=
        WriteLoop.wordAt_turn h0' (hsame.integrity hint) hw hw8 hy hw' hw8'
            (by rw [hi]; omega) (hsame.protected hp)
      rw [hsame.storageOf, hword] at hturn
      rw [modbusWriteLoop]
      exact ⟨hsame.trans (WriteLoop.sameMapping_turn h0' hw' hw8'), hturn⟩

end Request

/-! ### Runs of requests -/

/-- A request as `modbus_reply` gets it. -/
structure Request where
  backend : Backend
  query : Nat → UInt8
  reqLength : Nat

namespace Request

def slave (r : Request) : Nat := (r.query (r.backend.headerLength - 1)).toNat
def function (r : Request) : UInt8 := r.query r.backend.headerLength
def address (r : Request) : Nat :=
  be16 (r.query (r.backend.headerLength + 1)) (r.query (r.backend.headerLength + 2))
def nb (r : Request) : Nat :=
  be16 (r.query (r.backend.headerLength + 3)) (r.query (r.backend.headerLength + 4))

/-- The registers a request writes: those of its window, if it is accepted. -/
def Writes (r : Request) (w y : Nat) : Prop :=
  1 ≤ r.slave ∧ r.slave ≤ maxWellNum ∧ w = r.slave ∧
    (r.function = 6 ∧ r.address < maxRegisterNum ∧ y = r.address ∨
      r.function = 16 ∧ 1 ≤ r.nb ∧ r.nb ≤ modbusMaxWriteRegisters ∧
        r.address + r.nb ≤ maxRegisterNum ∧ r.address ≤ y ∧ y < r.address + r.nb)

end Request

/-- What a request does to the unit: nothing, or one write of its window. -/
theorem modbusReply_cases (env : Platform) (r : Request) (s : Rtu) :
    (modbusReply env r.backend r.query r.reqLength s).2 = s ∨
      ∃ buf addr n, 1 ≤ r.slave ∧ r.slave ≤ maxWellNum ∧ 1 ≤ n ∧ addr + n ≤ maxRegisterNum ∧
        (∀ k < n, r.Writes r.slave (addr + k)) ∧
        (modbusReply env r.backend r.query r.reqLength s).2
          = (mapModbusWriteRegisters env buf n r.slave addr true s).2 := by
  unfold modbusReply
  dsimp only
  -- the branches of `modbus_reply`: the two writes store, every other one leaves the state
  split
  · exact .inl rfl
  · rename_i hslave
    have hs : 1 ≤ r.slave ∧ r.slave ≤ maxWellNum := by
      unfold Request.slave
      omega
    split
    · exact .inl rfl
    · split
      · rename_i hf
        unfold replyWriteSingle
        split
        · exact .inl rfl
        · rename_i haddr
          refine .inr ⟨_, r.address, 1, hs.1, hs.2, Nat.le_refl 1, by unfold Request.address; omega,
            fun k hk => ⟨hs.1, hs.2, rfl, .inl ⟨hf, Nat.lt_of_not_le haddr, by omega⟩⟩, rfl⟩
      · split
        · rename_i hf
          unfold replyWriteMultiple
          split
          · exact .inl rfl
          · rename_i hnb
            split
            · exact .inl rfl
            · rename_i hrange
              have hnb : 1 ≤ r.nb ∧ r.nb ≤ modbusMaxWriteRegisters := by
                unfold Request.nb
                omega
              have hrange : r.address + r.nb ≤ maxRegisterNum := Nat.le_of_not_lt hrange
              exact .inr ⟨_, r.address, r.nb, hs.1, hs.2, hnb.1, hrange,
                fun k hk => ⟨hs.1, hs.2, rfl, .inr ⟨hf, hnb.1, hnb.2, hrange, by omega, by omega⟩⟩,
                rfl⟩
        · exact .inl rfl

/-- A request handled. -/
inductive RequestStep (env : Platform) : Rtu → Request → Rtu → Prop where
  | handled (s : Rtu) (r : Request) :
      RequestStep env s r (modbusReply env r.backend r.query r.reqLength s).2

/-- The request writes no register that leads to the well type. -/
def KeepsWellType (s : Rtu) (r : Request) : Prop :=
  ∀ w y, r.Writes w y → s.map.ramYMapType (yBase w + y) = .ram →
    s.map.cellOf w y ≠ mapChangeWellType

/-- What a request keeps. -/
theorem RequestStep.protected {env : Platform} {s s' : Rtu} {r : Request} {w y : Nat}
    (h : RequestStep env s r s') (hkeep : KeepsWellType s r) (hint : s.map.Integrity) (hw : 1 ≤ w)
    (hw8 : w ≤ maxWellNum) (hy : y < maxRegisterNum) (hp : Protected s.map w y) :
    SameMapping s.map s'.map ∧
      s'.map.wordAt (s.map.storageOf w y) = s.map.wordAt (s.map.storageOf w y) := by
  cases h with
  | handled =>
      obtain heq | ⟨buf, addr, n, hs, hs8, hn, hrange, hwrites, heq⟩ := modbusReply_cases env r s
      · rw [heq]
        exact ⟨.refl _, rfl⟩
      · rw [heq]
        unfold mapModbusWriteRegisters
        rw [modbusWriteLanded_of_ok hs hs8 hn hrange]
        exact modbusWriteLoop_protected hint hw hw8 hy hs hs8 hp n hrange
          fun k hk => hkeep _ _ (hwrites k hk)

/-- **Write protection.** Over every run of requests that leaves the well types alone,
a protected register reads the same. -/
theorem protected_run (env : Platform) (s s' : Rtu) (w y : Nat) (bigL : Bool)
    (hint : s.map.Integrity) (hw : 1 ≤ w) (hw8 : w ≤ maxWellNum) (hy : y < maxRegisterNum)
    (hp : Protected s.map w y)
    (hrun : Steps (guarded KeepsWellType (RequestStep env)) s s') :
    mapModbusReadRegisters env s' 1 w y bigL = mapModbusReadRegisters env s 1 w y bigL := by
  have hkeep : SameMapping s.map s'.map ∧
      s'.map.wordAt (s.map.storageOf w y) = s.map.wordAt (s.map.storageOf w y) := by
    induction hrun with
    | refl => exact ⟨.refl _, rfl⟩
    | tail _ hstep ih =>
        obtain ⟨hsame, hword⟩ := ih
        obtain ⟨r, hguard, hstep⟩ := hstep
        obtain ⟨hsame', hword'⟩ :=
          hstep.protected hguard (hsame.integrity hint) hw hw8 hy (hsame.protected hp)
        rw [hsame.storageOf, hword] at hword'
        exact ⟨hsame.trans hsame', hword'⟩
  obtain ⟨hsame, hword⟩ := hkeep
  have hplain : s.map.PlainRegister w y := .inr ⟨hp.mapped, hp.plain⟩
  rw [mapModbusReadRegisters_plain bigL (hsame.indexesInside hint.inside) hw hw8 hy
    (hsame.plainRegister hplain), hsame.storageOf, hword,
    mapModbusReadRegisters_plain bigL hint.inside hw hw8 hy hplain]

/-- Registers 40 and 41 of every well lead to the RAM cells 40 and 41; cell 41 may be written. -/
def readOnlyUnit : Rtu :=
  .start { emptyMap 300 (fun _ => 0) (fun _ => 0) with
    ramXMapType := fun _ => .ram
    ramXMapRw := fun i => if i % 300 = 41 then .rw else .ro
    ramY := fun r => UInt16.ofNat (r % 10000)
    ramYMapType := fun r => if r % 10000 = 40 ∨ r % 10000 = 41 then .ram else .null }

theorem readOnlyUnit_cell {w y : Nat} (hr : readOnlyUnit.map.ramYMapType (yBase w + y) = .ram) :
    readOnlyUnit.map.cellOf w y = 40 ∨ readOnlyUnit.map.cellOf w y = 41 := by
  have hcell : readOnlyUnit.map.cellOf w y = (UInt16.ofNat ((yBase w + y) % 10000)).toNat := rfl
  have hmod : (yBase w + y) % 10000 = 40 ∨ (yBase w + y) % 10000 = 41 := by
    by_contra hne
    have hnull : readOnlyUnit.map.ramYMapType (yBase w + y) = .null := if_neg hne
    rw [hnull] at hr
    cases hr
  rw [hcell]
  obtain h | h := hmod <;> rw [h]
  · exact .inl rfl
  · exact .inr rfl

theorem readOnlyUnit_integrity : readOnlyUnit.map.Integrity := by
  refine ⟨fun w y _ _ hy hr => ?_, fun w y _ _ hy hr _ => ?_⟩
  · obtain h | h := readOnlyUnit_cell hr <;> rw [h] <;> decide
  · obtain h | h := readOnlyUnit_cell hr <;> rw [h] <;> decide

theorem readOnlyUnit_protected : Protected readOnlyUnit.map 1 40 :=
  ⟨by decide, by decide, by decide, fun h => absurd h (by decide), by decide⟩

/-- Whatever requests come, none of them finds the well type. -/
theorem readOnlyUnit_steps (env : Platform) (rs : List Request) :
    Steps (guarded KeepsWellType (RequestStep env)) readOnlyUnit
      (rs.foldl (fun s r => (modbusReply env r.backend r.query r.reqLength s).2) readOnlyUnit) := by
  have hrun : ∀ s, SameMapping readOnlyUnit.map s.map →
      Steps (guarded KeepsWellType (RequestStep env)) s
        (rs.foldl (fun s r => (modbusReply env r.backend r.query r.reqLength s).2) s) := by
    induction rs with
    | nil => exact fun _ _ => .refl
    | cons r rs ih =>
        intro s hsame
        have hkeep : KeepsWellType s r := by
          intro w y _ hr hc
          rw [hsame.regType] at hr
          rw [hsame.cellOf hr] at hc
          obtain h | h := readOnlyUnit_cell hr <;> rw [h] at hc <;> exact absurd hc (by decide)
        have hstep : RequestStep env s r _ := .handled s r
        exact (Steps.one ⟨hkeep, hstep⟩).trans (ih _ (hsame.trans
          (hstep.protected hkeep (hsame.integrity readOnlyUnit_integrity) (by decide) (by decide)
            (by decide) (hsame.protected readOnlyUnit_protected)).1))
  exact hrun _ (.refl _)

/-- Requests over RTU to well 1: both registers written with functions 16 and 6, and read. -/
def bothRegisters : List Request :=
  [⟨.rtu, fun i => [1, 16, 0, 40, 0, 2, 4, 1, 2, 3, 4].getD i 0, 13⟩,
    ⟨.rtu, fun i => [1, 6, 0, 40, 5, 6].getD i 0, 8⟩,
    ⟨.rtu, fun i => [1, 6, 0, 41, 7, 8].getD i 0, 8⟩,
    ⟨.rtu, fun i => [1, 3, 0, 40, 0, 2].getD i 0, 8⟩]

/-- Register 40 reads the same after them. -/
theorem readOnlyUnit_run :
    mapModbusReadRegisters (.bare fun _ => none)
        (bothRegisters.foldl (fun s r =>
          (modbusReply (.bare fun _ => none) r.backend r.query r.reqLength s).2) readOnlyUnit)
        1 1 40 true
      = mapModbusReadRegisters (.bare fun _ => none) readOnlyUnit 1 1 40 true :=
  protected_run (.bare fun _ => none) readOnlyUnit _ 1 40 true readOnlyUnit_integrity (by decide)
    (by decide) (by decide) readOnlyUnit_protected (readOnlyUnit_steps _ bothRegisters)

end RtuA118
