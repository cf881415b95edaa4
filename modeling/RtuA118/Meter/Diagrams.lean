import RtuA118.Meter.Delivery
import RtuA118.Meter.Param
import RtuA118.Zigbee.Codec

/-!
# RtuA118.Meter.Diagrams

How the follow-up packets of the two diagram meters put a diagram together.

A `FollowUp` carries fifteen points of a diagram: two runs of words, each stored in an array of
its own. A packet gives every diagram cell a word or leaves it (`FollowUp.given`), so after any
sequence of packets a cell holds what the last one gave it (`received_cell`). The windows of two
indexes are disjoint in all four arrays, and those of index 14 lie apart from the times that are
stored behind it; so packets with different indexes can change places
(`FollowUp.receive_comm`).
-/

namespace RtuA118

/-! ### Follow-up packets -/

/-- The meters with a diagram. -/
inductive DiagramMeter where
  | load
  | electrical
  deriving DecidableEq, Repr

namespace DiagramMeter

def sensorType : DiagramMeter → Nat
  | load => meterTypeWlIntergrationLoad
  | electrical => meterTypeWlElectricity

def dataType : DiagramMeter → Nat
  | load => dataTypeIntergrationLoadDiagram
  | electrical => dataTypeElectricityDiagram

def ackType : DiagramMeter → UInt16
  | load => dataTypeRtuAckIntergrationDiagramData
  | electrical => dataTypeRtuAckWlElectricityDiagramData

/-- The arrays of the first and of the second fifteen words, and the time of the diagram. -/
def firstAddr : DiagramMeter → Nat
  | load => loadCyclePosAddr
  | electrical => elecCycleCurrentAddr

def secondAddr : DiagramMeter → Nat
  | load => loadCycleLoadAddr
  | electrical => elecCyclePowerAddr

def timeAddr : DiagramMeter → Nat
  | load => loadCycleTimeAddr
  | electrical => elecCycleTimeAddr

def kind (i : Nat) : DiagramMeter → PacketKind
  | load => .loadDiagram i
  | electrical => .electricalDiagram i

/-- Point `k` of a packet: a displacement comes in tenths. -/
def firstWord (m : DiagramMeter) (p : Nat → UInt8) (k : Nat) : UInt16 :=
  match m with
  | load => swappedAt p (12 + 2 * k) / 10
  | electrical => swappedAt p (12 + 2 * k)

def secondWord (p : Nat → UInt8) (k : Nat) : UInt16 := swappedAt p (12 + 2 * (15 + k))

/-- The diagram cells of a meter. -/
def Cell (m : DiagramMeter) (c : Nat) : Prop :=
  (m.firstAddr ≤ c ∧ c < m.firstAddr + 250) ∨ (m.secondAddr ≤ c ∧ c < m.secondAddr + 250)

end DiagramMeter

/-- A received follow-up packet for well `w`. -/
structure FollowUp (w : Nat) where
  meter : DiagramMeter
  index : Nat
  frame : Nat → UInt8
  received : frame 3 = zigbeeRcvDataFramid
  group : (sensorGroup (packetOf frame)).toNat = w
  protocol : protocolType (packetOf frame) = 0
  sensor : sensorType (packetOf frame) = meter.sensorType
  data : dataTyped (packetOf frame) = meter.dataType
  index_eq : (packetOf frame 10).toNat = index
  one_le : 1 ≤ index
  le_fourteen : index ≤ 14

namespace FollowUp

variable {w : Nat}

def packet (f : FollowUp w) : Nat → UInt8 := packetOf f.frame

/-- Its points. -/
def firstWords (f : FollowUp w) : List UInt16 :=
  (List.range 15).map fun k => f.meter.firstWord f.packet k

def secondWords (f : FollowUp w) : List UInt16 :=
  (List.range 15).map fun k => DiagramMeter.secondWord f.packet k

@[simp] theorem firstWords_length (f : FollowUp w) : f.firstWords.length = 15 := by
  simp [firstWords]

@[simp] theorem secondWords_length (f : FollowUp w) : f.secondWords.length = 15 := by
  simp [secondWords]

/-- Where its points are stored. -/
def firstAt (f : FollowUp w) : Nat := f.meter.firstAddr + 15 * (f.index - 1)
def secondAt (f : FollowUp w) : Nat := f.meter.secondAddr + 15 * (f.index - 1)

/-- The cells it writes. -/
def Window (f : FollowUp w) (c : Nat) : Prop :=
  (f.firstAt ≤ c ∧ c < f.firstAt + 15) ∨ (f.secondAt ≤ c ∧ c < f.secondAt + 15)

/-- The word it gives to a cell. -/
def given (f : FollowUp w) (c : Nat) : Option UInt16 :=
  if f.firstAt ≤ c ∧ c < f.firstAt + 15 then some (f.meter.firstWord f.packet (c - f.firstAt))
  else if f.secondAt ≤ c ∧ c < f.secondAt + 15 then
    some (DiagramMeter.secondWord f.packet (c - f.secondAt))
  else none

/-- Its acknowledgement on the radio. -/
def ackFrame (f : FollowUp w) : List UInt8 :=
  zigbeeTxFrame (originOf f.frame).mac
    (packetA11RtuHeader (originOf f.frame).group (originOf f.frame).num f.meter.ackType ++
      [UInt8.ofNat f.index])

/-- What `analysis_zigbee_rcv_data` makes of it. -/
def receive (env : Platform) (mc : Machine) (f : FollowUp w) (s : Rtu) : Rtu :=
  (analysisZigbeeRcvData env mc f.frame s).2

end FollowUp

/-- A sequence of packets received. -/
def receiveAll (env : Platform) (mc : Machine) {w : Nat} (fs : List (FollowUp w)) (s : Rtu) : Rtu :=
  fs.foldl (fun s f => f.receive env mc s) s

/-- The cells for the points of all fourteen packets live in `ram_x`. -/
def DiagramCellsRam (m : MapT) (w : Nat) : Prop :=
  ∀ d : DiagramMeter, RamCells m w d.firstAddr 210 ∧ RamCells m w d.secondAddr 210

/-- The word in a cell of a well. -/
def cellWord (s : Rtu) (w c : Nat) : UInt16 := s.map.ramX (s.map.xBase w + c)

/-! ### One packet -/

namespace FollowUp

section Step

variable {env : Platform} {mc : Machine} {w : Nat} {f g : FollowUp w} {s : Rtu} {c : Nat}

theorem kindOf_frame (f : FollowUp w) :
    kindOf (packetOf f.frame) = some (f.meter.kind f.index) := by
  have hi := f.index_eq
  have h1 := f.one_le
  have h14 := f.le_fourteen
  have hrange : 0 < (packetOf f.frame 10).toNat ∧ (packetOf f.frame 10).toNat < 15 := by omega
  have hne : (packetOf f.frame 10).toNat ≠ 0 := by omega
  have hprotocol := f.protocol
  have hsensor := f.sensor
  have hdata := f.data
  rw [← hi]
  cases hm : f.meter with
  | load =>
      simp only [hm, DiagramMeter.sensorType, DiagramMeter.dataType] at hsensor hdata
      simp [kindOf, loadKind, hprotocol, hsensor, hdata, hrange, hne, DiagramMeter.kind]
  | electrical =>
      simp only [hm, DiagramMeter.sensorType, DiagramMeter.dataType] at hsensor hdata
      simp [kindOf, electricalParamKind, hprotocol, hsensor, hdata, hrange, hne,
        DiagramMeter.kind]

/-- The calls it leads to. -/
theorem receive_eq (f : FollowUp w) (s : Rtu) :
    f.receive env mc s = runCalls env mc (originOf f.frame)
      ([.store f.firstAt f.firstWords, .store f.secondAt f.secondWords,
        .ack f.meter.ackType (f.packet 10)] ++
        if f.index = 14 then [.saveTime f.meter.timeAddr] else []) s := by
  rw [receive, analysis_eq env mc s f.received, packetCalls_of_kind f.kindOf_frame]
  have hmul : (f.index - 1) * 15 = 15 * (f.index - 1) := Nat.mul_comm _ _
  unfold firstAt secondAt firstWords secondWords
  cases f.meter with
  | load =>
      simp only [DiagramMeter.kind, PacketKind.calls, hmul]
      rfl
  | electrical =>
      simp only [DiagramMeter.kind, PacketKind.calls, hmul]
      rfl

theorem group_eq (f : FollowUp w) : (originOf f.frame).group.toNat = w := f.group

/-- The windows of a packet lie in its meter's arrays. -/
theorem offset_le (f : FollowUp w) : 15 * (f.index - 1) + 15 ≤ 210 := by
  have h14 := f.le_fourteen
  omega

/-- The arrays and the times, from the lowest to the highest. -/
theorem arrays_apart (d d' : DiagramMeter) :
    d.firstAddr + 250 ≤ d.secondAddr ∧ 1 ≤ d.firstAddr ∧
      (d.timeAddr + 6 ≤ d'.firstAddr ∨ d'.firstAddr + 250 ≤ d.timeAddr) ∧
      (d.timeAddr + 6 ≤ d'.secondAddr ∨ d'.secondAddr + 250 ≤ d.timeAddr) ∧
      (d = d' ∨ d.secondAddr + 250 ≤ d'.firstAddr ∨ d'.secondAddr + 250 ≤ d.firstAddr) := by
  cases d <;> cases d' <;> decide

/-- A diagram cell is no cell of a time. -/
theorem not_time_of_cell {d : DiagramMeter} (h : d.Cell c) (d' : DiagramMeter) :
    ¬ (d'.timeAddr ≤ c ∧ c < d'.timeAddr + 6) := by
  obtain ⟨-, -, hfirst, hsecond, -⟩ := arrays_apart d' d
  unfold DiagramMeter.Cell at h
  omega

theorem cell_of_window (h : f.Window c) : f.meter.Cell c := by
  have hoff := f.offset_le
  unfold Window firstAt secondAt at h
  unfold DiagramMeter.Cell
  omega

theorem receive_tables (env : Platform) (mc : Machine) (f : FollowUp w) (s : Rtu) :
    (f.receive env mc s).map.tables = s.map.tables := analysis_tables env mc f.frame s

/-- Words put into `ram_x` of a well. -/
def putAt (w addr : Nat) (words : List UInt16) (s : Rtu) : Rtu :=
  s.onMap fun m => { m with ramX := Store.put (m.xBase w + addr) words m.ramX }

/-- Both windows of a packet filled. -/
def stored (f : FollowUp w) (s : Rtu) : Rtu :=
  putAt w f.secondAt f.secondWords (putAt w f.firstAt f.firstWords s)

/-- The time behind the last packet. -/
def saveTime (env : Platform) (f : FollowUp w) (s : Rtu) : Rtu :=
  if f.index = 14 then writeWords env w f.meter.timeAddr (timeWords env s) s else s

theorem windows_ram (f : FollowUp w) {m : MapT} (hram : DiagramCellsRam m w) :
    RamCells m w f.firstAt 15 ∧ RamCells m w f.secondAt 15 := by
  have hoff := f.offset_le
  have hsub : ∀ {a : Nat}, RamCells m w a 210 → RamCells m w (a + 15 * (f.index - 1)) 15 := by
    intro a h
    have hfits := h.fits
    refine ⟨by omega, fun k hk => ?_⟩
    rw [Nat.add_assoc]
    exact h.ram _ (by omega)
  exact ⟨hsub (hram f.meter).1, hsub (hram f.meter).2⟩

theorem writeWords_putAt {addr : Nat} {words : List UInt16} (hw : 1 ≤ w) (hw8 : w ≤ 8)
    (hpos : 0 < words.length) (h : RamCells s.map w addr words.length) :
    writeWords env w addr words s = putAt w addr words s :=
  writeWords_of_ram hw hw8 hpos h.fits fun j hj => .inr (h.ram j hj)

/-- **One packet**: its windows, its acknowledgement, and the time. -/
theorem receive_eq_stored (f : FollowUp w) (hw : 1 ≤ w) (hw8 : w ≤ 8)
    (hram : DiagramCellsRam s.map w) :
    f.receive env mc s =
      f.saveTime env { f.stored s with radio := s.radio ++ [f.ackFrame] } := by
  obtain ⟨hfirst, hsecond⟩ := f.windows_ram hram
  have hone : writeWords env w f.firstAt f.firstWords s = putAt w f.firstAt f.firstWords s :=
    writeWords_putAt hw hw8 (by simp) (by rw [firstWords_length]; exact hfirst)
  have htwo : writeWords env w f.secondAt f.secondWords (putAt w f.firstAt f.firstWords s) =
      f.stored s :=
    writeWords_putAt hw hw8 (by simp)
      (by rw [secondWords_length]; exact ⟨hsecond.fits, hsecond.ram⟩)
  have hindex : f.packet 10 = UInt8.ofNat f.index := by
    rw [← f.index_eq, UInt8.ofNat_toNat]
    rfl
  have hack : zigbeeSendPacket (originOf f.frame).mac
      (packetA11RtuHeader (originOf f.frame).group (originOf f.frame).num f.meter.ackType ++
        [f.packet 10]) (f.stored s) = { f.stored s with radio := s.radio ++ [f.ackFrame] } := by
    rw [hindex]
    exact if_neg (by simp [packetA11RtuHeader])
  have hcalls : runCalls env mc (originOf f.frame) [.store f.firstAt f.firstWords,
      .store f.secondAt f.secondWords, .ack f.meter.ackType (f.packet 10)] s =
      { f.stored s with radio := s.radio ++ [f.ackFrame] } := by
    simp only [runCalls_cons, MeterCall.run, f.group_eq, hone, htwo]
    exact hack
  rw [receive_eq, runCalls_append, hcalls, saveTime]
  split
  · simp only [runCalls_cons, MeterCall.run, f.group_eq]
    rfl
  · rfl

theorem putAt_cell (addr : Nat) (words : List UInt16) (s : Rtu) (c : Nat) :
    cellWord (putAt w addr words s) w c =
      if addr ≤ c ∧ c < addr + words.length then words.getD (c - addr) 0 else cellWord s w c := by
  show Store.put (s.map.xBase w + addr) words s.map.ramX (s.map.xBase w + c) = _
  split
  · rename_i hc
    obtain ⟨k, rfl⟩ := Nat.exists_eq_add_of_le hc.1
    rw [← Nat.add_assoc, Store.put_of_lt 0 (by omega), Nat.add_sub_cancel_left]
  · exact Store.put_of_not_mem (by omega)

theorem stored_cell (f : FollowUp w) (s : Rtu) (c : Nat) :
    cellWord (f.stored s) w c = (f.given c).getD (cellWord s w c) := by
  have hoff := f.offset_le
  obtain ⟨hapart, -⟩ := arrays_apart f.meter f.meter
  have hfirst (k : Nat) (hk : k < 15) : f.firstWords.getD k 0 = f.meter.firstWord f.packet k := by
    simp [firstWords, hk]
  have hsecond (k : Nat) (hk : k < 15) :
      f.secondWords.getD k 0 = DiagramMeter.secondWord f.packet k := by
    simp [secondWords, hk]
  rw [stored, putAt_cell, putAt_cell, firstWords_length, secondWords_length, given]
  by_cases h2 : f.secondAt ≤ c ∧ c < f.secondAt + 15
  · have h1 : ¬ (f.firstAt ≤ c ∧ c < f.firstAt + 15) := by
      unfold firstAt
      unfold secondAt at h2
      omega
    rw [if_pos h2, if_neg h1, if_pos h2, hsecond _ (by omega)]
    rfl
  · rw [if_neg h2, if_neg h2]
    split
    · rw [hfirst _ (by omega)]
      rfl
    · rfl

/-- **What a cell holds afterwards.** -/
theorem receive_cell (env : Platform) (mc : Machine) (f : FollowUp w) {d : DiagramMeter}
    (hw : 1 ≤ w) (hw8 : w ≤ 8) (hram : DiagramCellsRam s.map w) (hc : d.Cell c) :
    cellWord (f.receive env mc s) w c = (f.given c).getD (cellWord s w c) := by
  have htime := not_time_of_cell hc f.meter
  have hkeeps (t : Rtu) : cellWord (f.saveTime env t) w c = cellWord t w c := by
    unfold saveTime
    split
    · have h1 : 1 ≤ f.meter.timeAddr := by cases f.meter <;> decide
      have ht : (writeWords env w f.meter.timeAddr (timeWords env t) t).map.tables = t.map.tables :=
        writeWords_tables h1
      rw [cellWord, xBase_eq_of_tables ht]
      refine writeWords_ramX_of_not_mem h1 ?_
      rw [timeWords_length]
      omega
    · rfl
  rw [receive_eq_stored f hw hw8 hram, hkeeps]
  exact f.stored_cell s c

theorem receive_radio (env : Platform) (mc : Machine) (f : FollowUp w) (hw : 1 ≤ w)
    (hw8 : w ≤ 8) (hram : DiagramCellsRam s.map w) :
    (f.receive env mc s).radio = s.radio ++ [f.ackFrame] := by
  rw [receive_eq_stored f hw hw8 hram, saveTime]
  split
  · have h10 : 10 ≤ f.meter.timeAddr := by cases f.meter <;> decide
    exact (writeWords_keeps h10).2.2.1
  · rfl

/-- A packet outside whose windows a cell lies gives it nothing. -/
theorem given_eq_none : f.given c = none ↔ ¬ f.Window c := by
  unfold given Window
  by_cases h1 : f.firstAt ≤ c ∧ c < f.firstAt + 15
  · simp [h1]
  · by_cases h2 : f.secondAt ≤ c ∧ c < f.secondAt + 15
    · simp [h1, h2]
    · simp [h1, h2]

/-- Packets with a window in common are of one meter and have one index. -/
theorem same_of_window (hf : f.Window c) (hg : g.Window c) :
    f.meter = g.meter ∧ f.index = g.index := by
  have hfoff := f.offset_le
  have hgoff := g.offset_le
  have hf1 := f.one_le
  have hg1 := g.one_le
  obtain ⟨h1, -, -, -, hsame⟩ := arrays_apart f.meter g.meter
  obtain ⟨h2, -⟩ := arrays_apart g.meter f.meter
  unfold Window firstAt secondAt at hf hg
  rcases hsame with hm | hm
  · rw [hm] at hf
    exact ⟨hm, by omega⟩
  · omega

end Step

end FollowUp

/-! ### Any sequence of packets -/

section Sequence

variable {env : Platform} {mc : Machine} {w : Nat} {s : Rtu} {c : Nat}

theorem DiagramCellsRam.of_tables {m m' : MapT} (h : DiagramCellsRam m w)
    (ht : m'.tables = m.tables) : DiagramCellsRam m' w := by
  have hram : ∀ {a : Nat}, RamCells m w a 210 → RamCells m' w a 210 := by
    intro a ha
    refine ⟨?_, fun k hk => ?_⟩
    · show a + 210 ≤ m'.tables.xMax
      rw [ht]
      exact ha.fits
    · rw [xBase_eq_of_tables ht, ramXMapType_eq_of_tables ht]
      exact ha.ram k hk
  exact fun d => ⟨hram (h d).1, hram (h d).2⟩

/-- A cell holds what the last packet that gives it a word gave it. -/
theorem receiveAll_cell {d : DiagramMeter} (hw : 1 ≤ w) (hw8 : w ≤ 8) (hc : d.Cell c)
    (fs : List (FollowUp w)) (s : Rtu) (hram : DiagramCellsRam s.map w) :
    cellWord (receiveAll env mc fs s) w c =
      fs.foldl (fun v f => (f.given c).getD v) (cellWord s w c) := by
  induction fs generalizing s with
  | nil => rfl
  | cons f fs ih =>
      have hram' := hram.of_tables (f.receive_tables env mc s)
      rw [List.foldl_cons, ← f.receive_cell env mc hw hw8 hram hc]
      exact ih _ hram'

theorem receiveAll_radio (hw : 1 ≤ w) (hw8 : w ≤ 8) (fs : List (FollowUp w)) (s : Rtu)
    (hram : DiagramCellsRam s.map w) :
    (receiveAll env mc fs s).radio = s.radio ++ fs.map FollowUp.ackFrame := by
  induction fs generalizing s with
  | nil => exact (List.append_nil _).symm
  | cons f fs ih =>
      have hram' := hram.of_tables (f.receive_tables env mc s)
      have hone := f.receive_radio env mc hw hw8 hram
      refine (ih _ hram').trans ?_
      rw [hone, List.append_assoc]
      rfl

/-- Packets that give a cell nothing. -/
theorem foldl_given_of_not_window {fs : List (FollowUp w)} (h : ∀ f ∈ fs, ¬ f.Window c)
    (v : UInt16) : fs.foldl (fun v f => (f.given c).getD v) v = v := by
  induction fs with
  | nil => rfl
  | cons f fs ih =>
      rw [List.foldl_cons, FollowUp.given_eq_none.2 (h f List.mem_cons_self)]
      exact ih fun g hg => h g (List.mem_cons_of_mem _ hg)

end Sequence

/-! ### Changing places -/

section Places

variable {env : Platform} {mc : Machine} {w : Nat} {s : Rtu}

/-- The unit with other words in a block of `ram_x`, and another radio. -/
def besides (b : Nat) (vs : List UInt16) (radio : List (List UInt8)) (s : Rtu) : Rtu :=
  { s.onMap fun m => { m with ramX := Store.put b vs m.ramX } with radio := radio }

/-- No function lies behind the cells of the times. -/
theorem mapMapFunWrite_timeCell {d : DiagramMeter} {i : Nat} (hi : d.timeAddr ≤ i)
    (hi' : i < d.timeAddr + 6) (v : UInt16) (s : Rtu) : mapMapFunWrite env v w i s = none := by
  have hcell : (1203 ≤ i ∧ i < 1209) ∨ (1805 ≤ i ∧ i < 1811) := by
    cases d
    · exact .inl ⟨hi, hi'⟩
    · exact .inr ⟨hi, hi'⟩
  unfold mapMapFunWrite
  split_ifs with h1 h2 h3 h4 h5 h6
  · exact absurd h1 (by unfold mapChangeWellType; omega)
  · exact absurd h2 (by unfold mapGetTimeHour mapGetTimeDay; omega)
  · exact absurd h3 (by unfold mapConfig1; omega)
  · exact absurd h4 (by unfold mapConfig2ElecInterv mapConfig2ActInterv; omega)
  · exact absurd h5 (by unfold mapGetDO0; omega)
  · exact absurd h6 (by unfold mapGetHistory; omega)
  · rfl

theorem setRamX_put {m : MapT} {i b : Nat} {vs : List UInt16} (v : UInt16)
    (hout : ¬ (b ≤ m.xBase w + i ∧ m.xBase w + i < b + vs.length)) :
    MapT.setRamX { m with ramX := Store.put b vs m.ramX } w i v =
      { m.setRamX w i v with ramX := Store.put b vs (m.setRamX w i v).ramX } := by
  have hcomm : Store.put (m.xBase w + i) [v] (Store.put b vs m.ramX) =
      Store.put b vs (Store.put (m.xBase w + i) [v] m.ramX) :=
    Store.put_comm (by rw [List.length_singleton]; omega) m.ramX
  rw [Store.put_cons, Store.put_nil, Store.put_cons, Store.put_nil] at hcomm
  unfold MapT.setRamX
  rw [← hcomm]
  rfl

/-- A cell written besides the block. -/
theorem writeCell_besides {i b : Nat} {vs : List UInt16} (radio : List (List UInt8)) (v : UInt16)
    (hfun : ∀ v s, mapMapFunWrite env v w i s = none)
    (hout : ¬ (b ≤ s.map.xBase w + i ∧ s.map.xBase w + i < b + vs.length)) :
    writeCell env w i v (besides b vs radio s) =
      ((writeCell env w i v s).1, besides b vs radio (writeCell env w i v s).2) := by
  have hset : (besides b vs radio s).onMap (·.setRamX w i v) =
      besides b vs radio (s.onMap (·.setRamX w i v)) :=
    congrArg (fun m => { s with map := m, radio := radio }) (setRamX_put v hout)
  have htype : (besides b vs radio s).map.ramXMapType ((besides b vs radio s).map.xBase w + i) =
      s.map.ramXMapType (s.map.xBase w + i) := rfl
  have hmsync : env.msync (besides b vs radio s).msyncs = env.msync s.msyncs := rfl
  have hsync (m : MapT) (hm : m.xBase w = s.map.xBase w) :
      { s with map := MapT.setRamX { m with ramX := Store.put b vs m.ramX } w i v,
               msyncs := s.msyncs + 1, radio := radio } =
        besides b vs radio { s with map := m.setRamX w i v, msyncs := s.msyncs + 1 } :=
    congrArg (fun m => { s with map := m, msyncs := s.msyncs + 1, radio := radio })
      (setRamX_put v (by rwa [hm]))
  -- a store in RAM comes after the block or before it, all the same; no kind reads the block
  cases ht : s.map.ramXMapType (s.map.xBase w + i) with
  | flash1 =>
      rw [writeCell_flash1 ht, writeCell_flash1 (htype.trans ht)]
      rw [hmsync]
      refine congrArg (Prod.mk _) ?_
      cases env.msync s.msyncs with
      | true => exact hsync (s.map.setFlash1 i v) rfl
      | false => rfl
  | flash2 =>
      rw [writeCell_flash2 ht, writeCell_flash2 (htype.trans ht)]
      rw [hmsync]
      refine congrArg (Prod.mk _) ?_
      cases env.msync s.msyncs with
      | true => exact hsync (s.map.setFlash2 w i v) rfl
      | false => rfl
  | sys =>
      simp only [writeCell, htype, ht, hfun]
      rw [hset]
  | null =>
      simp only [writeCell, htype, ht]
      rw [hset]
  | ram =>
      simp only [writeCell, htype, ht]
      rw [hset]
  | record => simp only [writeCell, htype, ht]
  | ro => simp only [writeCell, htype, ht]
  | rw => simp only [writeCell, htype, ht]

theorem writeCells_besides {b : Nat} {vs : List UInt16} (radio : List (List UInt8))
    (words : List UInt16) (i : Nat) (s : Rtu) (h1 : 1 ≤ i)
    (hfun : ∀ k < words.length, ∀ v s, mapMapFunWrite env v w (i + k) s = none)
    (hout : s.map.xBase w + i + words.length ≤ b ∨ b + vs.length ≤ s.map.xBase w + i) :
    writeCells env w i words (besides b vs radio s) =
      ((writeCells env w i words s).1, besides b vs radio (writeCells env w i words s).2) := by
  induction words generalizing i s with
  | nil => rfl
  | cons v words ih =>
      rw [List.length_cons] at hfun hout
      have hcell := writeCell_besides (s := s) radio v (hfun 0 (by omega))
        (show ¬ (b ≤ s.map.xBase w + i ∧ s.map.xBase w + i < b + vs.length) by omega)
      have hbase : (writeCell env w i v s).2.map.xBase w = s.map.xBase w :=
        xBase_eq_of_tables (writeCell_tables_of_ne fun _ => Nat.ne_of_gt h1) w
      rw [Nat.add_zero] at hcell
      simp only [writeCells]
      rw [hcell]
      rcases hrun : writeCell env w i v s with ⟨_ | _, t⟩
      · rfl
      · rw [hrun] at hbase
        refine ih (i + 1) t (by omega) (fun k hk => ?_) (by rw [hbase]; omega)
        rw [Nat.add_assoc, Nat.add_comm 1 k]
        exact hfun (k + 1) (by omega)

/-- The time is stored apart from every diagram. -/
theorem FollowUp.saveTime_besides (env : Platform) (f : FollowUp w) {d : DiagramMeter} {a : Nat}
    {vs : List UInt16} (radio : List (List UInt8)) (s : Rtu)
    (ha : (d.firstAddr ≤ a ∧ a + vs.length ≤ d.firstAddr + 250) ∨
      (d.secondAddr ≤ a ∧ a + vs.length ≤ d.secondAddr + 250)) :
    f.saveTime env (besides (s.map.xBase w + a) vs radio s) =
      besides (s.map.xBase w + a) vs radio (f.saveTime env s) := by
  unfold FollowUp.saveTime
  split
  · obtain ⟨-, -, hfirst, hsecond, -⟩ := FollowUp.arrays_apart f.meter d
    have h1 : 1 ≤ f.meter.timeAddr := by cases f.meter <;> decide
    have htime : timeWords env (besides (s.map.xBase w + a) vs radio s) = timeWords env s := rfl
    have hlen : (timeWords env s).length = 6 := rfl
    have hargs : (besides (s.map.xBase w + a) vs radio s).map.xMax = s.map.xMax := rfl
    have hfun : ∀ k < (timeWords env s).length, ∀ v t,
        mapMapFunWrite env v w (f.meter.timeAddr + k) t = none := fun k hk =>
      mapMapFunWrite_timeCell (d := f.meter) (by omega) (by omega)
    have hout : s.map.xBase w + f.meter.timeAddr + (timeWords env s).length ≤ s.map.xBase w + a ∨
        s.map.xBase w + a + vs.length ≤ s.map.xBase w + f.meter.timeAddr := by omega
    have hcells := writeCells_besides radio _ _ s h1 hfun hout
    rw [htime, writeWords_eq, writeWords_eq, hcells]
    unfold cellArgsOk
    rw [hargs]
    split <;> rfl
  · rfl

/-! ### The unit but for its radio -/

/-- The two units differ in what was sent only. -/
def SameButRadio (s t : Rtu) : Prop := { s with radio := [] } = { t with radio := [] }

/-- What a packet does besides its acknowledgement. -/
def FollowUp.effect (env : Platform) (f : FollowUp w) (s : Rtu) : Rtu := f.saveTime env (f.stored s)

theorem FollowUp.first_in (f : FollowUp w) :
    f.meter.firstAddr ≤ f.firstAt ∧ f.firstAt + 15 ≤ f.meter.firstAddr + 250 := by
  have hoff := f.offset_le
  unfold FollowUp.firstAt
  omega

theorem FollowUp.second_in (f : FollowUp w) :
    f.meter.secondAddr ≤ f.secondAt ∧ f.secondAt + 15 ≤ f.meter.secondAddr + 250 := by
  have hoff := f.offset_le
  unfold FollowUp.secondAt
  omega

theorem FollowUp.saveTime_keeps (env : Platform) (f : FollowUp w) (s : Rtu) :
    (f.saveTime env s).map.tables = s.map.tables ∧ (f.saveTime env s).radio = s.radio := by
  have h10 : 10 ≤ f.meter.timeAddr := by cases f.meter <;> decide
  unfold FollowUp.saveTime
  split
  · exact ⟨writeWords_tables (by omega), (writeWords_keeps h10).2.2.1⟩
  · exact ⟨rfl, rfl⟩

theorem FollowUp.saveTime_putAt (f : FollowUp w) {d : DiagramMeter} {a : Nat} {vs : List UInt16}
    (s : Rtu) (ha : (d.firstAddr ≤ a ∧ a + vs.length ≤ d.firstAddr + 250) ∨
      (d.secondAddr ≤ a ∧ a + vs.length ≤ d.secondAddr + 250)) :
    f.saveTime env (FollowUp.putAt w a vs s) = FollowUp.putAt w a vs (f.saveTime env s) := by
  obtain ⟨htables, hradio⟩ := f.saveTime_keeps env s
  calc f.saveTime env (FollowUp.putAt w a vs s)
      = besides (s.map.xBase w + a) vs s.radio (f.saveTime env s) :=
        f.saveTime_besides env s.radio s ha
    _ = FollowUp.putAt w a vs (f.saveTime env s) := by
        rw [← hradio, ← xBase_eq_of_tables htables w]
        rfl

theorem FollowUp.saveTime_stored (f g : FollowUp w) (s : Rtu) :
    f.saveTime env (g.stored s) = g.stored (f.saveTime env s) := by
  have h1 := g.first_in
  have h2 := g.second_in
  rw [← g.firstWords_length] at h1
  rw [← g.secondWords_length] at h2
  unfold FollowUp.stored
  rw [f.saveTime_putAt _ (.inr h2), f.saveTime_putAt _ (.inl h1)]

theorem FollowUp.saveTime_quiet (f : FollowUp w) (s : Rtu) :
    f.saveTime env { s with radio := [] } = { f.saveTime env s with radio := [] } := by
  have hquiet (t : Rtu) : besides (s.map.xBase w + f.meter.firstAddr) [] [] t =
      { t with radio := [] } := by simp [besides, Rtu.onMap]
  rw [← hquiet, ← hquiet]
  exact f.saveTime_besides env (d := f.meter) [] s (.inl ⟨Nat.le_refl _, Nat.le_add_right _ _⟩)

theorem FollowUp.quiet_receive (env : Platform) (mc : Machine) (f : FollowUp w) (hw : 1 ≤ w)
    (hw8 : w ≤ 8) (hram : DiagramCellsRam s.map w) :
    { f.receive env mc s with radio := [] } = f.effect env { s with radio := [] } := by
  rw [f.receive_eq_stored hw hw8 hram, ← f.saveTime_quiet]
  rfl

/-- The windows of two indexes. -/
theorem FollowUp.windows_apart {f g : FollowUp w} (h : f.index ≠ g.index) :
    (f.firstAt + 15 ≤ g.firstAt ∨ g.firstAt + 15 ≤ f.firstAt) ∧
      (f.firstAt + 15 ≤ g.secondAt ∨ g.secondAt + 15 ≤ f.firstAt) ∧
      (f.secondAt + 15 ≤ g.firstAt ∨ g.firstAt + 15 ≤ f.secondAt) ∧
      (f.secondAt + 15 ≤ g.secondAt ∨ g.secondAt + 15 ≤ f.secondAt) := by
  have hfoff := f.offset_le
  have hgoff := g.offset_le
  have hf1 := f.one_le
  have hg1 := g.one_le
  obtain ⟨h1, -, -, -, hsame⟩ := FollowUp.arrays_apart f.meter g.meter
  obtain ⟨h2, -⟩ := FollowUp.arrays_apart g.meter f.meter
  unfold FollowUp.firstAt FollowUp.secondAt
  rcases hsame with hm | hm
  · rw [hm] at h1 ⊢
    omega
  · omega

theorem FollowUp.putAt_comm {a b : Nat} {us vs : List UInt16}
    (h : a + us.length ≤ b ∨ b + vs.length ≤ a) (s : Rtu) :
    FollowUp.putAt w a us (FollowUp.putAt w b vs s) =
      FollowUp.putAt w b vs (FollowUp.putAt w a us s) := by
  have hput : Store.put (s.map.xBase w + a) us (Store.put (s.map.xBase w + b) vs s.map.ramX) =
      Store.put (s.map.xBase w + b) vs (Store.put (s.map.xBase w + a) us s.map.ramX) :=
    Store.put_comm (by omega) _
  exact congrArg (fun ramX => s.onMap fun m => { m with ramX := ramX }) hput

theorem FollowUp.stored_comm {f g : FollowUp w} (h : f.index ≠ g.index) (s : Rtu) :
    f.stored (g.stored s) = g.stored (f.stored s) := by
  obtain ⟨h11, h12, h21, h22⟩ := FollowUp.windows_apart h
  unfold FollowUp.stored
  rw [FollowUp.putAt_comm (a := f.firstAt) (b := g.secondAt) (by simpa using h12),
    FollowUp.putAt_comm (a := f.secondAt) (b := g.secondAt) (by simpa using h22),
    FollowUp.putAt_comm (a := f.firstAt) (b := g.firstAt) (by simpa using h11),
    FollowUp.putAt_comm (a := f.secondAt) (b := g.firstAt) (by simpa using h21)]

/-- A packet that is not the last of its diagram stores no time. -/
theorem FollowUp.effect_comm_stored {f g : FollowUp w} (h : f.index ≠ g.index)
    (hg : g.index ≠ 14) (s : Rtu) :
    f.effect env (g.effect env s) = g.effect env (f.effect env s) := by
  have hstored (t : Rtu) : g.effect env t = g.stored t := if_neg hg
  rw [hstored, hstored]
  unfold FollowUp.effect
  rw [FollowUp.stored_comm h, f.saveTime_stored g]

theorem FollowUp.effect_comm {f g : FollowUp w} (h : f.index ≠ g.index) (s : Rtu) :
    f.effect env (g.effect env s) = g.effect env (f.effect env s) := by
  by_cases hg : g.index = 14
  · exact (FollowUp.effect_comm_stored h.symm (fun hf => h (hf.trans hg.symm)) s).symm
  · exact FollowUp.effect_comm_stored h hg s

theorem quiet_receiveAll (env : Platform) (mc : Machine) (hw : 1 ≤ w) (hw8 : w ≤ 8)
    (fs : List (FollowUp w)) (s : Rtu) (hram : DiagramCellsRam s.map w) :
    { receiveAll env mc fs s with radio := [] } =
      fs.foldl (fun t f => f.effect env t) { s with radio := [] } := by
  induction fs generalizing s with
  | nil => rfl
  | cons f fs ih =>
      have hram' := hram.of_tables (f.receive_tables env mc s)
      rw [List.foldl_cons, ← f.quiet_receive env mc hw hw8 hram]
      exact ih _ hram'

end Places

/-! ### Diagrams -/

/-- What a sequence of packets makes of the diagrams of a well. -/
structure Assembled (env : Platform) (mc : Machine) {w : Nat} (fs : List (FollowUp w)) (s : Rtu) :
    Prop where
  /-- The points of the last packet with an index. -/
  latest : ∀ pre f post, fs = pre ++ f :: post →
    (∀ g ∈ post, ¬ (g.meter = f.meter ∧ g.index = f.index)) → ∀ k < 15,
      cellWord (receiveAll env mc fs s) w (f.firstAt + k) = f.meter.firstWord f.packet k ∧
      cellWord (receiveAll env mc fs s) w (f.secondAt + k) = DiagramMeter.secondWord f.packet k
  others : ∀ d : DiagramMeter, ∀ c, d.Cell c → (∀ f ∈ fs, ¬ f.Window c) →
    cellWord (receiveAll env mc fs s) w c = cellWord s w c
  /-- Neighbours with different indexes change places. -/
  places : ∀ pre f g post, fs = pre ++ f :: g :: post → f.index ≠ g.index →
    SameButRadio (receiveAll env mc fs s) (receiveAll env mc (pre ++ g :: f :: post) s)
  /-- A meter's diagram is that of its own packets. -/
  apart : ∀ d : DiagramMeter, ∀ c, d.Cell c → cellWord (receiveAll env mc fs s) w c =
    cellWord (receiveAll env mc (fs.filter fun f => decide (f.meter = d)) s) w c
  acks : (receiveAll env mc fs s).radio = s.radio ++ fs.map FollowUp.ackFrame

section Diagrams

variable {env : Platform} {mc : Machine} {w : Nat} {s : Rtu}

/-- The word the last packet with a window around a cell gives it. -/
theorem foldl_given_last {pre post : List (FollowUp w)} {f : FollowUp w} {c : Nat} {v : UInt16}
    (hv : f.given c = some v) (hf : f.Window c)
    (hlast : ∀ g ∈ post, ¬ (g.meter = f.meter ∧ g.index = f.index)) (u : UInt16) :
    (pre ++ f :: post).foldl (fun v f => (f.given c).getD v) u = v := by
  rw [List.foldl_append, List.foldl_cons, hv]
  exact foldl_given_of_not_window (fun g hg hin => hlast g hg (FollowUp.same_of_window hin hf)) v

/-- Packets of the other meter have no window in a meter's arrays. -/
theorem foldl_given_filter {d : DiagramMeter} {c : Nat} (hc : d.Cell c) (fs : List (FollowUp w))
    (v : UInt16) :
    fs.foldl (fun v f => (f.given c).getD v) v =
      (fs.filter fun f => decide (f.meter = d)).foldl (fun v f => (f.given c).getD v) v := by
  induction fs generalizing v with
  | nil => rfl
  | cons f fs ih =>
      by_cases hm : f.meter = d
      · rw [List.filter_cons_of_pos (by simpa using hm)]
        exact ih _
      · have hout : ¬ f.Window c := by
          intro hin
          have hcell := FollowUp.cell_of_window hin
          obtain ⟨h1, -, -, -, hsame⟩ := FollowUp.arrays_apart f.meter d
          obtain ⟨h2, -⟩ := FollowUp.arrays_apart d f.meter
          have hd := hsame.resolve_left hm
          unfold DiagramMeter.Cell at hc hcell
          omega
        rw [List.filter_cons_of_neg (by simpa using hm), List.foldl_cons,
          FollowUp.given_eq_none.2 hout]
        exact ih v

end Diagrams

/-- **Diagram assembly.** -/
theorem diagrams_assembled (env : Platform) (mc : Machine) (w : Nat) (fs : List (FollowUp w))
    (s : Rtu) (hw : 1 ≤ w) (hw8 : w ≤ 8) (hram : DiagramCellsRam s.map w) :
    Assembled env mc fs s where
  latest := by
    intro pre f post hfs hlast k hk
    have hfirst : f.Window (f.firstAt + k) := .inl (by omega)
    have hsecond : f.Window (f.secondAt + k) := .inr (by omega)
    have hgiven : f.given (f.firstAt + k) = some (f.meter.firstWord f.packet k) := by
      rw [FollowUp.given, if_pos (by omega), Nat.add_sub_cancel_left]
    have hgiven' : f.given (f.secondAt + k) = some (DiagramMeter.secondWord f.packet k) := by
      have h1 := f.first_in
      have h2 := f.second_in
      have hapart := (FollowUp.arrays_apart f.meter f.meter).1
      rw [FollowUp.given, if_neg (by omega), if_pos (by omega), Nat.add_sub_cancel_left]
    rw [receiveAll_cell hw hw8 (FollowUp.cell_of_window hfirst) fs s hram,
      receiveAll_cell hw hw8 (FollowUp.cell_of_window hsecond) fs s hram, hfs]
    exact ⟨foldl_given_last hgiven hfirst hlast _, foldl_given_last hgiven' hsecond hlast _⟩
  others := by
    intro d c hc hout
    rw [receiveAll_cell hw hw8 hc fs s hram]
    exact foldl_given_of_not_window hout _
  places := by
    intro pre f g post hfs hne
    unfold SameButRadio
    rw [quiet_receiveAll env mc hw hw8 fs s hram, quiet_receiveAll env mc hw hw8 _ s hram, hfs]
    simp only [List.foldl_append, List.foldl_cons]
    -- two follow-ups with different places write different cells
    rw [FollowUp.effect_comm hne]
  apart := by
    intro d c hc
    rw [receiveAll_cell hw hw8 hc fs s hram, receiveAll_cell hw hw8 hc _ s hram]
    exact foldl_given_filter hc fs _
  acks := receiveAll_radio hw hw8 fs s hram

/-- A follow-up packet whose points are their own positions. -/
def followFrame (sensor data index : UInt8) : Nat → UInt8 := fun i =>
  if i = 3 then 0x91 else if i = 26 then sensor else if i = 27 then 1 else if i = 30 then data
  else if i = 31 then index else if 33 ≤ i then UInt8.ofNat i else 0

def loadFollowUp : FollowUp 1 where
  meter := .load
  index := 2
  frame := followFrame 1 0x20 2
  received := rfl
  group := rfl
  protocol := rfl
  sensor := rfl
  data := rfl
  index_eq := rfl
  one_le := by decide
  le_fourteen := by decide

def electricalFollowUp : FollowUp 1 where
  meter := .electrical
  index := 14
  frame := followFrame 4 0x30 14
  received := rfl
  group := rfl
  protocol := rfl
  sensor := rfl
  data := rfl
  index_eq := rfl
  one_le := by decide
  le_fourteen := by decide

theorem ramUnit_assembled :
    Assembled (.bare fun _ => none) zeroMachine [loadFollowUp, electricalFollowUp, loadFollowUp]
      ramUnit :=
  diagrams_assembled (.bare fun _ => none) zeroMachine 1
    [loadFollowUp, electricalFollowUp, loadFollowUp] ramUnit (by decide) (by decide) fun d => by
      cases d <;> exact ⟨ramUnit_ramCells (by decide), ramUnit_ramCells (by decide)⟩

end RtuA118
