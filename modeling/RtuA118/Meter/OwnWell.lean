import RtuA118.Map.RegisterFile
import RtuA118.Meter.Delivery

/-!
# RtuA118.Meter.OwnWell

What a packet changes and what it posts.

Where the cells that packets are stored in are RAM cells, a store is one block store
into its well (`writeWords_meterCells`). So decoding changes cells of the packet's own
well only (`analysis_onlyWell`), and posts nothing but the message of a first diagram
packet (`analysis_posted`).
-/

namespace RtuA118

/-! ### One well's cells -/

/-- Of a map at most cells of well `g` differ. -/
structure OnlyWell (g : Nat) (m m' : MapT) : Prop where
  cells : ∀ w i, 1 ≤ w → w ≤ maxWellNum → w ≠ g → i < m.xMax →
    m'.ramX (m.xBase w + i) = m.ramX (m.xBase w + i)
  rest : m' = { m with ramX := m'.ramX }

namespace OnlyWell

variable {g : Nat} {m m' m'' : MapT}

theorem refl (g : Nat) (m : MapT) : OnlyWell g m m := ⟨fun _ _ _ _ _ _ => rfl, rfl⟩

theorem xMax (h : OnlyWell g m m') : m'.xMax = m.xMax := by rw [h.rest]

theorem xBase (h : OnlyWell g m m') (w : Nat) : m'.xBase w = m.xBase w := by rw [h.rest]; rfl

theorem trans (h : OnlyWell g m m') (h' : OnlyWell g m' m'') : OnlyWell g m m'' := by
  refine ⟨fun w i hw hw8 hne hi => ?_, ?_⟩
  · have hcell := h'.cells w i hw hw8 hne (by rwa [h.xMax])
    rw [h.xBase] at hcell
    exact hcell.trans (h.cells w i hw hw8 hne hi)
  · rw [h'.rest, h.rest]

/-- A block store into the well. -/
theorem put {w addr : Nat} {words : List UInt16} (hw : 1 ≤ w)
    (hfit : addr + words.length ≤ m.xMax) :
    OnlyWell w m { m with ramX := Store.put (m.xBase w + addr) words m.ramX } := by
  refine ⟨fun w' i hw' _ hne hi => Store.put_of_not_mem ?_, rfl⟩
  rintro ⟨hlo, hhi⟩
  obtain ⟨j, hj⟩ := Nat.exists_eq_add_of_le hlo
  rw [Nat.add_assoc] at hj
  exact hne ((MapT.xBase_add_inj hw' hw hi (by omega)).1 hj).1

end OnlyWell

/-! ### Meter cells -/

/-- The cells that packets and sampling runs are stored in. -/
def MeterCell (i : Nat) : Prop :=
  (∃ mc p, ∃ c ∈ packetCalls mc p, c.Covers i) ∨
    (elecCycleCurrentAddr ≤ i ∧ i < elecCycleCurrentAddr + 500) ∨
    elecCycleTimeAddr ≤ i ∧ i < elecCycleTimeAddr + 6

/-- They are RAM cells in every well. -/
def MapT.MeterCellsRam (m : MapT) : Prop :=
  ∀ w i, 1 ≤ w → w ≤ maxWellNum → i < m.xMax → MeterCell i → m.ramXMapType (m.xBase w + i) = .ram

theorem MapT.MeterCellsRam.of_onlyWell {g : Nat} {m m' : MapT} (hram : m.MeterCellsRam)
    (h : OnlyWell g m m') : m'.MeterCellsRam := by
  rw [h.rest]
  exact hram

section Store

variable {env : Platform} {w addr : Nat} {words : List UInt16} {s : Rtu}

/-- **A store into meter cells** is refused, or it is one block store. -/
theorem writeWords_meterCells (hram : s.map.MeterCellsRam)
    (hcells : ∀ i, addr ≤ i → i < addr + words.length → MeterCell i) :
    writeWords env w addr words s = s ∨ 1 ≤ w ∧ w ≤ maxWellNum ∧ addr + words.length ≤ s.map.xMax ∧
      writeWords env w addr words s =
        s.onMap fun m => { m with ramX := Store.put (m.xBase w + addr) words m.ramX } := by
  by_cases hok : cellArgsOk s.map words.length w addr = true
  · obtain ⟨hw8, hw, -, hpos, hfit⟩ := cellArgsOk_iff.1 hok
    have hwell : w ≤ maxWellNum := Int.ofNat_le.1 hw8
    refine .inr ⟨by omega, hwell, by omega, ?_⟩
    refine writeWords_of_ram (by omega) hwell (by omega) (by omega) fun j hj => .inr ?_
    exact hram w _ (by omega) hwell (by omega) (hcells _ (by omega) (by omega))
  · exact .inl (by rw [writeWords_eq, if_neg hok])

theorem writeWords_onlyWell (hram : s.map.MeterCellsRam)
    (hcells : ∀ i, addr ≤ i → i < addr + words.length → MeterCell i) :
    OnlyWell w s.map (writeWords env w addr words s).map := by
  rcases writeWords_meterCells hram hcells with h | ⟨hw, -, hfit, h⟩
  · rw [h]
    exact .refl _ _
  · rw [h]
    exact .put hw hfit

theorem writeWords_posted (hram : s.map.MeterCellsRam)
    (hcells : ∀ i, addr ≤ i → i < addr + words.length → MeterCell i) :
    (writeWords env w addr words s).posted = s.posted := by
  rcases writeWords_meterCells hram hcells with h | ⟨-, -, -, h⟩ <;> rw [h]
  rfl

end Store

/-! ### A packet -/

section Packet

variable {env : Platform} {mc : Machine} {o : Origin} {s : Rtu}

theorem zigbeeSendPacket_posted {mac : Nat → UInt8} {data : List UInt8} :
    (zigbeeSendPacket mac data s).posted = s.posted := by
  unfold zigbeeSendPacket
  split <;> rfl

theorem judgeEqMeterPara_posted (w slot : Nat) :
    (judgeEqMeterPara w slot s).2.posted = s.posted := by
  unfold judgeEqMeterPara
  dsimp only
  split_ifs <;> rfl

theorem answerRoutine_posted {slot intervalAddr : Nat} {cur : UInt16} {keep : Rtu → Rtu}
    (hkeep : ∀ s, (keep s).posted = s.posted) :
    (answerRoutine env o slot intervalAddr cur keep s).posted = s.posted := by
  have hj := judgeEqMeterPara_posted (s := s) o.group.toNat slot
  unfold answerRoutine
  split
  · rename_i heq
    rw [heq] at hj
    rw [zigbeeSendPacket_posted, hkeep, hj]
  · rename_i heq
    rw [heq] at hj
    rw [zigbeeSendPacket_posted, hj]

theorem answerLoadRoutine_posted : (answerLoadRoutine env mc o s).posted = s.posted := by
  have hj := judgeEqMeterPara_posted (s := s) o.group.toNat loadNo
  unfold answerLoadRoutine
  split
  · rename_i heq
    rw [heq] at hj
    rw [zigbeeSendPacket_posted, hj]
  · rename_i heq
    rw [heq] at hj
    rw [zigbeeSendPacket_posted, hj]

/-- A call changes cells of the packet's well, and posts nothing unless it starts a
synchronous diagram. -/
theorem MeterCall.run_onlyWell {c : MeterCall} (hram : s.map.MeterCellsRam)
    (hcells : ∀ i, c.Covers i → MeterCell i) :
    OnlyWell o.group.toNat s.map (c.run env mc o s).map := by
  rcases MeterCall.run_cases env mc o c s with ⟨addr, words, hrun, hcovers, -⟩ | ⟨hmap, -⟩
  · rw [hrun]
    exact writeWords_onlyWell hram fun i hlo hhi => hcells i ((hcovers i).2 ⟨hlo, hhi⟩)
  · rw [hmap]
    exact .refl _ _

theorem MeterCall.run_posted {c : MeterCall} (hram : s.map.MeterCellsRam)
    (hcells : ∀ i, c.Covers i → MeterCell i) (hc : ∀ t n m, c ≠ .loadElecSysn t n m) :
    (c.run env mc o s).posted = s.posted := by
  cases c with
  | answer slot intervalAddr cur => exact answerRoutine_posted fun _ => rfl
  | answerElec => exact answerRoutine_posted fun _ => rfl
  | answerLoad => exact answerLoadRoutine_posted
  | sampleTime slot => rfl
  | store addr words => exact writeWords_posted hram fun i hlo hhi => hcells i ⟨hlo, hhi⟩
  | saveTime addr => exact writeWords_posted hram fun i hlo hhi => hcells i ⟨hlo, hhi⟩
  | ack dataType index => exact zigbeeSendPacket_posted
  | loadElecSysn t n m => exact absurd rfl (hc t n m)

theorem runCalls_onlyWell : ∀ {cs : List MeterCall} {s : Rtu}, s.map.MeterCellsRam →
    (∀ c ∈ cs, ∀ i, c.Covers i → MeterCell i) →
    OnlyWell o.group.toNat s.map (runCalls env mc o cs s).map := by
  intro cs
  induction cs with
  | nil => intro s _ _; exact .refl _ _
  | cons c cs ih =>
      intro s hram hcells
      have hrun : OnlyWell o.group.toNat s.map (c.run env mc o s).map :=
        MeterCall.run_onlyWell hram (hcells c List.mem_cons_self)
      exact hrun.trans (ih (hram.of_onlyWell hrun) fun d hd => hcells d (List.mem_cons_of_mem _ hd))

theorem runCalls_posted : ∀ {cs : List MeterCall} {s : Rtu}, s.map.MeterCellsRam →
    (∀ c ∈ cs, ∀ i, c.Covers i → MeterCell i) → (∀ c ∈ cs, ∀ t n m, c ≠ .loadElecSysn t n m) →
    (runCalls env mc o cs s).posted = s.posted := by
  intro cs
  induction cs with
  | nil => intro s _ _ _; rfl
  | cons c cs ih =>
      intro s hram hcells hcs
      have hrun : OnlyWell o.group.toNat s.map (c.run env mc o s).map :=
        MeterCall.run_onlyWell hram (hcells c List.mem_cons_self)
      rw [runCalls_cons, ih (hram.of_onlyWell hrun)
        (fun d hd => hcells d (List.mem_cons_of_mem _ hd))
        fun d hd => hcs d (List.mem_cons_of_mem _ hd)]
      exact MeterCall.run_posted hram (hcells c List.mem_cons_self) (hcs c List.mem_cons_self)

end Packet

section Frame

variable {env : Platform} {mc : Machine} {q : Nat → UInt8} {s : Rtu}

/-- **Decoding changes cells of the packet's own well only.** -/
theorem analysis_onlyWell (hram : s.map.MeterCellsRam) :
    OnlyWell (originOf q).group.toNat s.map (analysisZigbeeRcvData env mc q s).2.map := by
  unfold analysisZigbeeRcvData
  split
  · exact .refl _ _
  · exact runCalls_onlyWell hram fun c hc i hi => .inl ⟨mc, _, c, hc, hi⟩

/-- The calls but the first of a first diagram packet start no diagram. -/
theorem packetCalls_quiet {p : Nat → UInt8} (hk : kindOf p ≠ some .loadFirst) :
    ∀ c ∈ packetCalls mc p, ∀ t n m, c ≠ .loadElecSysn t n m := by
  cases hkind : kindOf p with
  | none =>
      rw [packetCalls_of_none hkind]
      exact fun c hc => absurd hc List.not_mem_nil
  | some k =>
      rw [packetCalls_of_kind hkind]
      cases k with
      | loadFirst => exact absurd hkind hk
      | routine m =>
          cases m <;> simp [PacketKind.calls, Meter.calls, saveMeterInfo, storeReadings]
      | answerOnly slot intervalAddr => simp [PacketKind.calls]
      | para addr => simp [PacketKind.calls, saveParam]
      | loadDiagram i =>
          simp only [PacketKind.calls]
          split <;> simp
      | electricalFirst => simp [PacketKind.calls]
      | electricalDiagram i =>
          simp only [PacketKind.calls]
          split <;> simp

/-- The request of a first diagram packet, and the queue it goes to. -/
def diagramRequest (q : Nat → UInt8) (s : Rtu) : Queue × Msg :=
  (if judgeElecParamWiredWireless (s.elecParamMeterMac ((originOf q).group.toNat - 1)) then .zigbee
    else .rtuClient,
    .loadElecSysn (swappedAt (packetOf q) 14) (swappedAt (packetOf q) 22)
      (swappedAt (packetOf q) 18) (UInt16.ofNat (originOf q).group.toNat))

/-- **What decoding posts.** -/
theorem analysis_posted (hram : s.map.MeterCellsRam) (hid : q 3 = zigbeeRcvDataFramid) :
    (analysisZigbeeRcvData env mc q s).2.posted = s.posted ++
      if kindOf (packetOf q) = some .loadFirst then [diagramRequest q s] else [] := by
  have hcells : ∀ c ∈ packetCalls mc (packetOf q), ∀ i, c.Covers i → MeterCell i :=
    fun c hc i hi => .inl ⟨mc, _, c, hc, hi⟩
  rw [analysis_eq env mc s hid]
  split
  · rename_i hk
    rw [packetCalls_of_kind hk] at hcells ⊢
    simp only [PacketKind.calls] at hcells ⊢
    rw [runCalls_cons, runCalls_posted]
    · rfl
    · exact hram
    · exact fun c hc => hcells c (List.mem_cons_of_mem _ hc)
    · simp
  · rename_i hk
    rw [runCalls_posted hram hcells (packetCalls_quiet hk), List.append_nil]

end Frame

end RtuA118
