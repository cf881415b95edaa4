import RtuA118.Map.Stores
import RtuA118.Meter.Analysis

/-!
# RtuA118.Meter.Calls

What the calls of the decoders keep and what they set. All their addresses lie
above the cells with a clock or a type behind them (`MeterCall.From`), so they
leave the mapping tables and the clock alone, and each of them sets `ram_x` at
the cells it **covers** only.
-/

namespace RtuA118

/-! ### Addresses of a call -/

namespace MeterCall

/-- The cells of its well a call writes. -/
def Covers : MeterCall → Nat → Prop
  | .store addr words, i => addr ≤ i ∧ i < addr + words.length
  | .saveTime addr, i => addr ≤ i ∧ i < addr + 6
  | _, _ => False

instance (c : MeterCall) (i : Nat) : Decidable (c.Covers i) := by
  cases c <;> unfold Covers <;> infer_instance

@[simp] theorem covers_store {addr i : Nat} {words : List UInt16} :
    (store addr words).Covers i ↔ addr ≤ i ∧ i < addr + words.length := Iff.rfl

@[simp] theorem covers_saveTime {addr i : Nat} :
    (saveTime addr).Covers i ↔ addr ≤ i ∧ i < addr + 6 := Iff.rfl

/-- A call that writes from cell `n` on. -/
def From (n : Nat) : MeterCall → Prop
  | .store addr _ => n ≤ addr
  | .saveTime addr => n ≤ addr
  | _ => True

theorem From.mono {m n : Nat} {c : MeterCall} (h : c.From n) (hm : m ≤ n) : c.From m := by
  cases c <;> first
    | exact Nat.le_trans hm h
    | trivial

end MeterCall

/-! ### Answers -/

/-- The parts of the unit that packets are about are as before. -/
structure Keeps (s s' : Rtu) : Prop where
  map : s'.map = s.map
  time : s'.time = s.time
  meterSampleTime : s'.meterSampleTime = s.meterSampleTime
  radio : s'.radio = s.radio

/-- An answer is one packet on the radio. -/
structure Answers (s s' : Rtu) : Prop where
  map : s'.map = s.map
  time : s'.time = s.time
  meterSampleTime : s'.meterSampleTime = s.meterSampleTime
  radio : ∃ frame, s'.radio = s.radio ++ [frame]

theorem Keeps.trans {s s' s'' : Rtu} (h : Keeps s s') (h' : Keeps s' s'') : Keeps s s'' :=
  ⟨h'.map.trans h.map, h'.time.trans h.time, h'.meterSampleTime.trans h.meterSampleTime,
    h'.radio.trans h.radio⟩

/-- A packet of up to 80 bytes is sent. -/
theorem Keeps.send {s s' : Rtu} {mac : Nat → UInt8} {data : List UInt8} (h : Keeps s s')
    (hlen : data.length ≤ 80) : Answers s (zigbeeSendPacket mac data s') := by
  unfold zigbeeSendPacket
  rw [if_neg (by omega)]
  exact ⟨h.map, h.time, h.meterSampleTime, _, congrArg (· ++ _) h.radio⟩

/-- The question for parameters changes nothing but its own time. -/
theorem judgeEqMeterPara_keeps (w slot : Nat) (s : Rtu) :
    Keeps s (judgeEqMeterPara w slot s).2 := by
  unfold judgeEqMeterPara
  split
  · exact ⟨rfl, rfl, rfl, rfl⟩
  split
  · exact ⟨rfl, rfl, rfl, rfl⟩
  dsimp only
  split <;> exact ⟨rfl, rfl, rfl, rfl⟩

theorem answerRoutine_answers (env : Platform) (o : Origin) (slot intervalAddr : Nat) (cur : UInt16)
    {keep : Rtu → Rtu} (hkeep : ∀ s, Keeps s (keep s)) (s : Rtu) :
    Answers s (answerRoutine env o slot intervalAddr cur keep s) := by
  have hj := judgeEqMeterPara_keeps o.group.toNat slot s
  unfold answerRoutine
  split
  · rename_i s' heq
    rw [heq] at hj
    exact (hj.trans (hkeep s')).send (by simp [packetA11RtuHeader, swappedBytes])
  · rename_i r s' _ heq
    rw [heq] at hj
    exact hj.send (by simp [packetA11RtuHeader])

theorem answerLoadRoutine_answers (env : Platform) (mc : Machine) (o : Origin) (s : Rtu) :
    Answers s (answerLoadRoutine env mc o s) := by
  have hj := judgeEqMeterPara_keeps o.group.toNat loadNo s
  unfold answerLoadRoutine
  split
  · rename_i s' heq
    rw [heq] at hj
    exact hj.send (by simp [packetA11RtuHeader, swappedBytes])
  · rename_i r s' _ heq
    rw [heq] at hj
    exact hj.send (by simp [packetA11RtuHeader])

theorem MeterCall.ack_answers (env : Platform) (mc : Machine) (o : Origin) (dataType : UInt16)
    (index : UInt8) (s : Rtu) : Answers s ((MeterCall.ack dataType index).run env mc o s) :=
  Keeps.send ⟨rfl, rfl, rfl, rfl⟩ (by simp [packetA11RtuHeader])

/-! ### Internal writes -/

/-- An internal write as the loop over its words. -/
theorem writeWords_eq {env : Platform} {w addr : Nat} {words : List UInt16} {s : Rtu} :
    writeWords env w addr words s =
      if cellArgsOk s.map words.length w addr then (writeCells env w addr words s).2 else s := by
  have hall : (List.range words.length).map (fun k => words.getD k 0) = words := by
    apply List.ext_getElem
    · simp
    · intro k _ hk
      rw [List.getElem_map, List.getElem_range, List.getD_eq_getElem _ _ hk]
  unfold writeWords zigbeeWriteRegisters
  split
  · rw [Int.toNat_natCast, Int.toNat_natCast, Int.toNat_natCast, hall]
  · rfl

/-- A cell's write keeps the meters' times and the radio, and above the clock's cells
the clock. -/
theorem mapMapFunWrite_keeps {env : Platform} {v v' : UInt16} {w i : Nat} {s s' : Rtu}
    (h : mapMapFunWrite env v w i s = some (v', s')) (hi : 10 ≤ i) :
    s'.time = s.time ∧ s'.meterSampleTime = s.meterSampleTime ∧ s'.radio = s.radio ∧
      s'.equMeterParaTime = s.equMeterParaTime := by
  have h0 : i ≠ mapChangeWellType := by
    unfold mapChangeWellType
    omega
  obtain ⟨htime, -, -⟩ | ⟨-, -, rfl⟩ | ⟨-, -, rfl⟩ | ⟨-, -, rfl⟩ | ⟨-, -, rfl⟩ :=
    mapMapFunWrite_cases h h0
  · unfold mapGetTimeDay at htime
    omega
  · unfold rtuResetFlash1
    split
    · simp only [List.foldl_cons, List.foldl_nil, Rtu.post, and_self]
    · exact ⟨rfl, rfl, rfl, rfl⟩
  · exact ⟨rfl, rfl, rfl, rfl⟩
  · unfold storeFun gpioSetDo
    split <;> exact ⟨rfl, rfl, rfl, rfl⟩
  · exact ⟨rfl, rfl, rfl, rfl⟩

theorem writeCell_keeps (env : Platform) (v : UInt16) (w : Nat) {i : Nat} (s : Rtu) (hi : 10 ≤ i) :
    (writeCell env w i v s).2.time = s.time ∧
      (writeCell env w i v s).2.meterSampleTime = s.meterSampleTime ∧
      (writeCell env w i v s).2.radio = s.radio ∧
      (writeCell env w i v s).2.equMeterParaTime = s.equMeterParaTime := by
  cases ht : s.map.ramXMapType (s.map.xBase w + i) with
  | sys =>
      simp only [writeCell, ht]
      split
      · rename_i v' s' hf
        have hkeeps := mapMapFunWrite_keeps hf hi
        exact hkeeps
      · exact ⟨rfl, rfl, rfl, rfl⟩
  | flash1 =>
      rw [writeCell_flash1 ht]
      exact ⟨rfl, rfl, rfl, rfl⟩
  | flash2 =>
      rw [writeCell_flash2 ht]
      exact ⟨rfl, rfl, rfl, rfl⟩
  | _ => simp [writeCell, ht, Rtu.onMap]

section Words

variable {env : Platform} {w addr : Nat} {words : List UInt16} {s : Rtu}

theorem writeWords_keeps (ha : 10 ≤ addr) :
    (writeWords env w addr words s).time = s.time ∧
      (writeWords env w addr words s).meterSampleTime = s.meterSampleTime ∧
      (writeWords env w addr words s).radio = s.radio ∧
      (writeWords env w addr words s).equMeterParaTime = s.equMeterParaTime := by
  rw [writeWords_eq]
  split
  · refine writeCells_induction (motive := fun t => t.time = s.time ∧
      t.meterSampleTime = s.meterSampleTime ∧ t.radio = s.radio ∧
      t.equMeterParaTime = s.equMeterParaTime) 10 ?_ ha ⟨rfl, rfl, rfl, rfl⟩
    rintro i v t hi ⟨h1, h2, h3, h4⟩
    obtain ⟨k1, k2, k3, k4⟩ := writeCell_keeps env v w t hi
    exact ⟨k1.trans h1, k2.trans h2, k3.trans h3, k4.trans h4⟩
  · exact ⟨rfl, rfl, rfl, rfl⟩

theorem writeWords_tables (ha : 1 ≤ addr) :
    (writeWords env w addr words s).map.tables = s.map.tables := by
  rw [writeWords_eq]
  split
  · exact writeCells_tables ha
  · rfl

theorem writeWords_ramX_of_not_mem {b : Nat} (ha : 1 ≤ addr)
    (hb : ¬ (s.map.xBase w + addr ≤ b ∧ b < s.map.xBase w + addr + words.length)) :
    (writeWords env w addr words s).map.ramX b = s.map.ramX b := by
  rw [writeWords_eq]
  split
  · exact writeCells_ramX_of_not_mem ha hb
  · rfl

/-- The window lies in the well's block. -/
theorem cellArgsOk_of_fits {m : MapT} (hw : 1 ≤ w) (hw8 : w ≤ maxWellNum) (hpos : 0 < words.length)
    (hfit : addr + words.length ≤ m.xMax) : cellArgsOk m words.length w addr = true := by
  unfold maxWellNum at hw8
  rw [cellArgsOk_iff]
  omega

theorem writeWords_ramX_of_mem {k : Nat} {d : UInt16} (ha : 1 ≤ addr) (hw : 1 ≤ w)
    (hw8 : w ≤ maxWellNum) (hfit : addr + words.length ≤ s.map.xMax) (hk : k < words.length)
    (hgo : ∀ j < k, Goes env s.map (s.map.xBase w + (addr + j)))
    (hram : (s.map.ramXMapType (s.map.xBase w + (addr + k))).IsRam) :
    (writeWords env w addr words s).map.ramX (s.map.xBase w + (addr + k)) = words.getD k d := by
  rw [writeWords_eq, if_pos (cellArgsOk_of_fits hw hw8 (by omega) hfit)]
  exact writeCells_ramX_of_mem ha hk hgo hram

theorem writeWords_of_ram (hw : 1 ≤ w) (hw8 : w ≤ maxWellNum) (hpos : 0 < words.length)
    (hfit : addr + words.length ≤ s.map.xMax)
    (hram : ∀ j < words.length, (s.map.ramXMapType (s.map.xBase w + (addr + j))).IsRam) :
    writeWords env w addr words s =
      s.onMap fun m => { m with ramX := Store.put (m.xBase w + addr) words m.ramX } := by
  rw [writeWords_eq, if_pos (cellArgsOk_of_fits hw hw8 hpos hfit), writeCells_of_ram hram]

end Words

/-! ### One call -/

section Call

variable {env : Platform} {mc : Machine} {o : Origin} {c : MeterCall} {s : Rtu}

theorem timeWords_length : (timeWords env s).length = 6 := rfl

/-- A call that does not write cells keeps the map. -/
theorem MeterCall.run_cases (env : Platform) (mc : Machine) (o : Origin) (c : MeterCall) (s : Rtu) :
    (∃ addr words, c.run env mc o s = writeWords env o.group.toNat addr words s ∧
      (∀ i, c.Covers i ↔ addr ≤ i ∧ i < addr + words.length) ∧ ∀ n, c.From n → n ≤ addr) ∨
    (c.run env mc o s).map = s.map ∧ (c.run env mc o s).time = s.time := by
  cases c with
  | answer slot intervalAddr cur =>
      have h := answerRoutine_answers env o slot intervalAddr cur
        (fun s => show Keeps s (id s) from ⟨rfl, rfl, rfl, rfl⟩) s
      exact .inr ⟨h.map, h.time⟩
  | answerElec =>
      have h := answerRoutine_answers env o electricalParameterNo elecIntervalAddr 0
        (fun s => show Keeps s (keepMac o s) from ⟨rfl, rfl, rfl, rfl⟩) s
      exact .inr ⟨h.map, h.time⟩
  | answerLoad =>
      have h := answerLoadRoutine_answers env mc o s
      exact .inr ⟨h.map, h.time⟩
  | sampleTime slot => exact .inr ⟨rfl, rfl⟩
  | store addr words => exact .inl ⟨addr, words, rfl, fun _ => Iff.rfl, fun _ h => h⟩
  | saveTime addr =>
      refine .inl ⟨addr, timeWords env s, rfl, fun i => ?_, fun _ h => h⟩
      rw [timeWords_length]
      exact Iff.rfl
  | ack dataType index =>
      have h := MeterCall.ack_answers env mc o dataType index s
      exact .inr ⟨h.map, h.time⟩
  | loadElecSysn => exact .inr ⟨rfl, rfl⟩

theorem MeterCall.run_tables (h : c.From 1) : (c.run env mc o s).map.tables = s.map.tables := by
  rcases MeterCall.run_cases env mc o c s with ⟨addr, words, hrun, -, hfrom⟩ | ⟨hmap, -⟩
  · rw [hrun]
    exact writeWords_tables (hfrom 1 h)
  · rw [hmap]

theorem MeterCall.run_time (h : c.From 10) : (c.run env mc o s).time = s.time := by
  rcases MeterCall.run_cases env mc o c s with ⟨addr, words, hrun, -, hfrom⟩ | ⟨-, htime⟩
  · rw [hrun]
    exact (writeWords_keeps (hfrom 10 h)).1
  · exact htime

/-- A cell of the packet's well that a call does not cover. -/
theorem MeterCall.run_ramX {i : Nat} (h : c.From 1) (hi : ¬ c.Covers i) :
    (c.run env mc o s).map.ramX (s.map.xBase o.group.toNat + i)
      = s.map.ramX (s.map.xBase o.group.toNat + i) := by
  rcases MeterCall.run_cases env mc o c s with ⟨addr, words, hrun, hcovers, hfrom⟩ | ⟨hmap, -⟩
  · rw [hrun]
    rw [hcovers] at hi
    exact writeWords_ramX_of_not_mem (hfrom 1 h) (by omega)
  · rw [hmap]

end Call

/-! ### Many calls -/

section Calls

variable {env : Platform} {mc : Machine} {o : Origin}

theorem runCalls_tables : ∀ {cs : List MeterCall} {s : Rtu}, (∀ c ∈ cs, c.From 1) →
    (runCalls env mc o cs s).map.tables = s.map.tables := by
  intro cs
  induction cs with
  | nil => intro s _; rfl
  | cons c cs ih =>
      intro s h
      rw [runCalls_cons, ih fun d hd => h d (List.mem_cons_of_mem _ hd)]
      exact MeterCall.run_tables (h c List.mem_cons_self)

theorem runCalls_time : ∀ {cs : List MeterCall} {s : Rtu}, (∀ c ∈ cs, c.From 10) →
    (runCalls env mc o cs s).time = s.time := by
  intro cs
  induction cs with
  | nil => intro s _; rfl
  | cons c cs ih =>
      intro s h
      rw [runCalls_cons, ih fun d hd => h d (List.mem_cons_of_mem _ hd)]
      exact MeterCall.run_time (h c List.mem_cons_self)

theorem runCalls_ramX {i : Nat} : ∀ {cs : List MeterCall} {s : Rtu}, (∀ c ∈ cs, c.From 1) →
    (∀ c ∈ cs, ¬ c.Covers i) →
    (runCalls env mc o cs s).map.ramX (s.map.xBase o.group.toNat + i)
      = s.map.ramX (s.map.xBase o.group.toNat + i) := by
  intro cs
  induction cs with
  | nil => intro s _ _; rfl
  | cons c cs ih =>
      intro s h hi
      have ht : (c.run env mc o s).map.tables = s.map.tables :=
        MeterCall.run_tables (h c List.mem_cons_self)
      have hx := xBase_eq_of_tables ht o.group.toNat
      have hrest := ih (s := c.run env mc o s) (fun d hd => h d (List.mem_cons_of_mem _ hd))
        fun d hd => hi d (List.mem_cons_of_mem _ hd)
      rw [hx] at hrest
      rw [runCalls_cons, hrest]
      exact MeterCall.run_ramX (h c List.mem_cons_self) (hi c List.mem_cons_self)

/-- **A stored word is there after all calls**, when the loop gets to it and no
later call covers its cell. -/
theorem runCalls_stored {pre post : List MeterCall} {addr k : Nat} {words : List UInt16}
    {d : UInt16} {s : Rtu} (hpre : ∀ c ∈ pre, c.From 1) (hpost : ∀ c ∈ post, c.From 1)
    (ha : 1 ≤ addr) (hg : 1 ≤ o.group.toNat) (hg8 : o.group.toNat ≤ maxWellNum)
    (hfit : addr + words.length ≤ s.map.xMax) (hk : k < words.length)
    (hgo : ∀ j < k, Goes env s.map (s.map.xBase o.group.toNat + (addr + j)))
    (hram : (s.map.ramXMapType (s.map.xBase o.group.toNat + (addr + k))).IsRam)
    (hlast : ∀ c ∈ post, ¬ c.Covers (addr + k)) :
    (runCalls env mc o (pre ++ .store addr words :: post) s).map.ramX
      (s.map.xBase o.group.toNat + (addr + k)) = words.getD k d := by
  have ht : (runCalls env mc o pre s).map.tables = s.map.tables := runCalls_tables hpre
  obtain ⟨t, htdef⟩ : ∃ t, t = runCalls env mc o pre s := ⟨_, rfl⟩
  rw [← htdef] at ht
  have hx := xBase_eq_of_tables ht o.group.toNat
  have hxmax : t.map.xMax = s.map.xMax := congrArg Tables.xMax ht
  have htype := ramXMapType_eq_of_tables ht
  have hw : ((MeterCall.store addr words).run env mc o t).map.tables = t.map.tables :=
    writeWords_tables ha
  rw [runCalls_append, runCalls_cons, ← htdef]
  -- the calls behind the store leave the cell
  have hlater :
      (runCalls env mc o post ((MeterCall.store addr words).run env mc o t)).map.ramX _ = _ :=
    runCalls_ramX hpost hlast
  have hxw : ((MeterCall.store addr words).run env mc o t).map.xBase o.group.toNat
      = s.map.xBase o.group.toNat := (xBase_eq_of_tables hw _).trans hx
  rw [hxw] at hlater
  rw [hlater, ← hx]
  refine writeWords_ramX_of_mem ha hg hg8 (by omega) hk (fun j hj => ?_) ?_
  · have hj' := hgo j hj
    unfold Goes at hj' ⊢
    rw [hx, htype]
    exact hj'
  · rw [hx, htype]
    exact hram

end Calls

end RtuA118
