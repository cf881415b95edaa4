import RtuA118.Serial.Divisions
import RtuA118.Zigbee.Codec

/-!
# RtuA118.Meter.ElectricalSync

`send_sysn_electrical_param`: the request that makes the electrical meter of a well sample along
with the load meter.

Its chart mode comes from the register the load decoder sends as a data mode. The load decoder
sends the register itself, or zero where it is no mode; the request sends the byte that is left of
the exchanged register, which is its upper one.
-/

namespace RtuA118

/-! ### What the two meters are sent -/

/-- The packet in a frame on the radio. -/
def sentPacket (frame : List UInt8) : Nat → UInt8 := fun k => frame.getD (23 + k) 0

/-- The fields of the request: the points, the time, the interval, and the mode. -/
structure SynchronisesWith (syn : SynInfo) (mode : UInt8) (p : Nat → UInt8) : Prop where
  points : be16 (p 11) (p 12) = syn.samplePoints.toNat
  time : be16 (p 13) (p 14) =
    if 12 < syn.synchronTime.toNat then syn.synchronTime.toNat - 12 else syn.synchronTime.toNat
  interval : be16 (p 15) (p 16) = syn.cycleTime.toNat * 10 / (syn.samplePoints.toNat - 1)
  chartMode : p 10 = mode

/-- A routine report of the load meter of well `w`. -/
structure LoadRoutine (w : Nat) (q : Nat → UInt8) : Prop where
  sensor : sensorType (packetOf q) = meterTypeWlIntergrationLoad
  protocol : protocolType (packetOf q) = 0
  data : dataTyped (packetOf q) = dataTypeRoutineData
  group : (sensorGroup (packetOf q)).toNat = w
  num : sensorNum (packetOf q) = 1

/-- The request sent in `s` agrees with the request for a diagram that `analysis_load` sends in
`s'`. -/
def RequestsAgree (h : Host) (mc : Machine) (reserve : Nat → UInt8) (syn : SynInfo)
    (group : UInt16) (q : Nat → UInt8) (s s' : Rtu) : Prop :=
  ∃ u f g, sendSysnElectricalParam h reserve syn group s = some u ∧ u.radio = s.radio ++ [f] ∧
    (runCalls h.env mc (originOf q) (analysisLoad mc (packetOf q)).2 s').radio = s'.radio ++ [g] ∧
    SynchronisesWith syn (sentPacket g 10) (sentPacket f)

/-- The register of the mode has nothing in its upper byte and is none of the two modes that are
not zero, and the interval fits its field. -/
structure RequestFits (register : UInt16) (syn : SynInfo) : Prop where
  mode : register.toNat < 256 ∧ register ≠ 0x01 ∧ register ≠ 0x10
  interval : syn.cycleTime.toNat * 10 / (syn.samplePoints.toNat - 1) < 65536

/-! ### The packets on the radio -/

section Packets

variable {env : Platform} {mc : Machine} {s s' : Rtu} {w : Nat} {register : UInt16}
  {syn : SynInfo} {q : Nat → UInt8}

theorem sentPacket_zigbeeTxFrame (mac : Nat → UInt8) {data : List UInt8} {k : Nat}
    (hk : k < data.length) : sentPacket (zigbeeTxFrame mac data) k = data.getD k 0 := by
  have hhead : zigbeeTxFrame mac data =
      ([0x7E, UInt8.ofNat ((20 + data.length) / 256), UInt8.ofNat ((20 + data.length) % 256)] ++
        ([0x11, 0x00] ++ (List.range 8).map mac ++ [0xFF, 0xFE] ++
          [0xE8, 0xE8, 0x00, 0x11, 0x18, 0x57, 0x00, 0x60])) ++
        (data ++ [calcSumCheck (zigbeeTxBody mac data)]) := by
    simp [zigbeeTxFrame, zigbeeTxBody]
  rw [sentPacket, hhead, List.getD_append_right _ _ _ _ (by simp)]
  exact (congrArg (List.getD _ · 0) (by simp)).trans (List.getD_append _ _ _ _ hk)

/-- The mode the load decoder sends of a register. -/
def loadDataMode (register : UInt16) : UInt8 :=
  loByte (if register ≠ 0x01 ∧ register ≠ 0x10 then 0x00 else register)

/-- A meter that is not due for its parameters leaves no trace. -/
theorem judgeEqMeterPara_same {slot : Nat} (h : (judgeEqMeterPara w slot s).1 = -1) :
    judgeEqMeterPara w slot s = (-1, s) := by
  unfold judgeEqMeterPara at h ⊢
  split_ifs at h ⊢ with hwell hslot
  · rfl
  · rfl
  · dsimp only at h ⊢
    split at h
    · simp at h
    · rename_i hdue
      rw [if_neg hdue]

/-- A load meter that is not due for its parameters is asked for a diagram. -/
theorem answerLoadRoutine_mode (mc : Machine) {o : Origin}
    (hread : ReadsAs env s o.group.toNat loadSampleModeAddr [register])
    (hjudge : (judgeEqMeterPara o.group.toNat loadNo s).1 = -1) :
    ∃ g, (answerLoadRoutine env mc o s).radio = s.radio ++ [g] ∧
      sentPacket g 10 = loadDataMode register := by
  have hsame := judgeEqMeterPara_same hjudge
  unfold answerLoadRoutine
  split
  · rename_i s' heq
    obtain rfl : s = s' := congrArg Prod.snd (hsame.symm.trans heq)
    rw [hread.readWord]
    refine ⟨_, zigbeeSendPacket_radio (by simp [packetA11RtuHeader, swappedBytes]) s, ?_⟩
    rw [sentPacket_zigbeeTxFrame _ (by simp [packetA11RtuHeader, swappedBytes])]
    rfl
  · rename_i r s' hne heq
    exact absurd (congrArg Prod.fst (heq.symm.trans hsame)) hne

/-- The calls after the answer keep the radio. -/
theorem analysisLoad_radio (mc : Machine) (hq : LoadRoutine w q)
    (hw : 1 ≤ w) (hw8 : w ≤ 8) (s : Rtu) :
    (runCalls env mc (originOf q) (analysisLoad mc (packetOf q)).2 s).radio =
      (answerLoadRoutine env mc (originOf q) s).radio := by
  have hgroup : GroupOk (packetOf q) := by
    unfold GroupOk maxWellNum
    rw [hq.group]
    omega
  have hcalls : (analysisLoad mc (packetOf q)).2 =
      [.answerLoad, .sampleTime loadNo, saveMeterInfo (packetOf q) loadMeterInfoAddr,
        storeReadings (packetOf q) loadLoadRtdataAddr [20, 16]] := by
    simp [analysisLoad, hq.sensor, hq.protocol, hq.data, hq.num, hgroup]
  rw [hcalls]
  simp only [runCalls_cons, saveMeterInfo, storeReadings, MeterCall.run]
  rw [show ∀ t, runCalls env mc (originOf q) [] t = t from fun _ => rfl,
    (writeWords_keeps (by simp)).2.2.1, (writeWords_keeps (by simp)).2.2.1]

/-- What the electrical meter is sent. -/
def sysnPacket (reserve : Nat → UInt8) (syn : SynInfo) (group register : UInt16) : List UInt8 :=
  packetA11RtuHeader (UInt8.ofNat group.toNat) 1 dataTypeRtuEquWlElectricityDiagramData ++
    [hiByte register] ++ swappedBytes syn.samplePoints ++
    swappedBytes (if syn.synchronTime > 12 then syn.synchronTime - 12 else syn.synchronTime) ++
    swappedBytes (UInt16.ofInt
      ((syn.cycleTime.toNat * 10 : Int).tdiv (syn.samplePoints.toNat - 1))) ++
    [0] ++ (List.range 10).map reserve

theorem sendSysnElectricalParam_sent {h : Host} (reserve : Nat → UInt8) {group : UInt16}
    (hg : 1 ≤ group.toNat) (hg8 : group.toNat ≤ 8) (hpoints : 2 ≤ syn.samplePoints.toNat)
    (hread : ReadsAs h.env s group.toNat loadSampleModeAddr [register]) :
    ∃ u, sendSysnElectricalParam h reserve syn group s = some u ∧
      u.radio = s.radio ++ [zigbeeTxFrame (s.elecParamMeterMac (group.toNat - 1))
        (sysnPacket reserve syn group register)] := by
  have hwell : ¬ (group ≥ 9 ∨ group < 1) := by
    simp only [ge_iff_le, UInt16.le_iff_toNat_le, UInt16.lt_iff_toNat_lt]
    have h9 : (9 : UInt16).toNat = 9 := rfl
    have h1 : (1 : UInt16).toNat = 1 := rfl
    omega
  have hdivisor : ¬ ((syn.samplePoints.toNat : Int) - 1 = 0) := by omega
  have hsent : sendSysnElectricalParam h reserve syn group s = some (zigbeeSendPacket
      (s.elecParamMeterMac (group.toNat - 1)) (sysnPacket reserve syn group register) s) := by
    unfold sendSysnElectricalParam
    dsimp only
    rw [if_neg hwell, if_neg hdivisor, hread.readWord]
    rfl
  have hlen : (sysnPacket reserve syn group register).length = 28 := by
    simp [sysnPacket, packetA11RtuHeader, swappedBytes]
  exact ⟨_, hsent, zigbeeSendPacket_radio (by omega) s⟩

/-- The interval field holds what is left of the quotient. -/
theorem interval_field {cycle points : Nat} (h : 2 ≤ points) :
    (UInt16.ofInt ((cycle * 10 : Int).tdiv (points - 1))).toNat =
      cycle * 10 / (points - 1) % 65536 := by
  have hpoints : (points : Int) - 1 = ((points - 1 : Nat) : Int) := by omega
  have hint : (cycle * 10 : Int).tdiv (points - 1) = ((cycle * 10 / (points - 1) : Nat) : Int) := by
    rw [Int.tdiv_eq_ediv_of_nonneg (by omega), hpoints]
    rfl
  have hlt : cycle * 10 / (points - 1) % 65536 < 65536 := Nat.mod_lt _ (by decide)
  rw [hint, UInt16.ofInt, UInt16.toNat_ofNat']
  omega

/-- The modes of the two meters are the same where the register is no mode, and a byte. -/
theorem hiByte_eq_loadDataMode_iff (register : UInt16) :
    hiByte register = loadDataMode register ↔
      register.toNat < 256 ∧ register ≠ 0x01 ∧ register ≠ 0x10 := by
  have hlt := register.toNat_lt
  unfold loadDataMode
  by_cases hmode : register ≠ 0x01 ∧ register ≠ 0x10
  · rw [if_pos hmode, ← UInt8.toNat_inj, toNat_hiByte]
    have hzero : (loByte 0x00).toNat = 0 := rfl
    rw [hzero]
    exact ⟨fun h => ⟨by omega, hmode⟩, fun h => by omega⟩
  · rw [if_neg hmode]
    refine iff_of_false (fun h => ?_) fun h => hmode h.2
    rcases not_and_or.1 hmode with h1 | h1
    · rw [not_not.1 h1] at h
      exact absurd h (by decide)
    · rw [not_not.1 h1] at h
      exact absurd h (by decide)

/-- The fields of a packet that has these bytes. -/
theorem synchronisesWith_iff {reserve : Nat → UInt8} {group : UInt16} {p : Nat → UInt8}
    (hpoints : 2 ≤ syn.samplePoints.toNat)
    (hp : ∀ k < 28, p k = (sysnPacket reserve syn group register).getD k 0) :
    SynchronisesWith syn (loadDataMode register) p ↔ RequestFits register syn := by
  have hmode : p 10 = hiByte register := hp 10 (by decide)
  have htime : be16 (p 13) (p 14) = if 12 < syn.synchronTime.toNat then
      syn.synchronTime.toNat - 12 else syn.synchronTime.toNat := by
    rw [hp 13 (by decide), hp 14 (by decide)]
    refine (be16_bytes _).trans ?_
    have h12 : (12 : UInt16).toNat = 12 := rfl
    by_cases hlate : syn.synchronTime > 12
    · have hlt : 12 < syn.synchronTime.toNat := UInt16.lt_iff_toNat_lt.1 hlate
      rw [if_pos hlate, if_pos hlt, UInt16.toNat_sub_of_le _ _ (UInt16.le_of_lt hlate), h12]
    · have hge : ¬ 12 < syn.synchronTime.toNat := fun h => hlate (UInt16.lt_iff_toNat_lt.2 h)
      rw [if_neg hlate, if_neg hge]
  have hcount : be16 (p 11) (p 12) = syn.samplePoints.toNat := by
    rw [hp 11 (by decide), hp 12 (by decide)]
    exact be16_bytes _
  have hinterval : be16 (p 15) (p 16) =
      syn.cycleTime.toNat * 10 / (syn.samplePoints.toNat - 1) % 65536 := by
    rw [hp 15 (by decide), hp 16 (by decide)]
    exact (be16_bytes _).trans (interval_field hpoints)
  constructor
  · intro h
    refine ⟨(hiByte_eq_loadDataMode_iff register).1 (hmode ▸ h.chartMode), ?_⟩
    have hfield := hinterval.symm.trans h.interval
    omega
  · intro h
    refine ⟨hcount, htime, ?_, hmode.trans ((hiByte_eq_loadDataMode_iff register).2 h.mode)⟩
    rw [hinterval, Nat.mod_eq_of_lt h.interval]

end Packets

section Requests

variable {h : Host} {mc : Machine} {reserve : Nat → UInt8} {syn : SynInfo} {group register : UInt16}
  {q : Nat → UInt8} {s s' : Rtu}

/-- Both packets, and what the one says of the other. -/
theorem requests_sent (h : Host) (mc : Machine) (reserve : Nat → UInt8) (syn : SynInfo)
    (group : UInt16) (hg : 1 ≤ group.toNat)
    (hg8 : group.toNat ≤ 8) (hpoints : 2 ≤ syn.samplePoints.toNat)
    (hread : ReadsAs h.env s group.toNat loadSampleModeAddr [register])
    (hread' : ReadsAs h.env s' group.toNat loadSampleModeAddr [register])
    (hq : LoadRoutine group.toNat q)
    (hjudge : (judgeEqMeterPara group.toNat loadNo s').1 = -1) :
    ∃ u f g, sendSysnElectricalParam h reserve syn group s = some u ∧ u.radio = s.radio ++ [f] ∧
      (runCalls h.env mc (originOf q) (analysisLoad mc (packetOf q)).2 s').radio =
        s'.radio ++ [g] ∧
      (SynchronisesWith syn (sentPacket g 10) (sentPacket f) ↔ RequestFits register syn) := by
  obtain ⟨u, hu, hradio⟩ := sendSysnElectricalParam_sent reserve hg hg8 hpoints hread
  have horigin : (originOf q).group.toNat = group.toNat := hq.group
  rw [← horigin] at hread' hjudge
  obtain ⟨g, hload, hmode⟩ := answerLoadRoutine_mode mc hread' hjudge
  rw [← analysisLoad_radio mc hq hg hg8 s'] at hload
  have hlen : (sysnPacket reserve syn group register).length = 28 := by
    simp [sysnPacket, packetA11RtuHeader, swappedBytes]
  refine ⟨u, _, g, hu, hradio, hload, ?_⟩
  rw [hmode]
  exact synchronisesWith_iff hpoints fun k hk => sentPacket_zigbeeTxFrame _ (hlen ▸ hk)

theorem RequestsAgree.iff_of_sent {u : Rtu} {f g : List UInt8}
    (hu : sendSysnElectricalParam h reserve syn group s = some u) (hf : u.radio = s.radio ++ [f])
    (hg : (runCalls h.env mc (originOf q) (analysisLoad mc (packetOf q)).2 s').radio =
      s'.radio ++ [g]) :
    RequestsAgree h mc reserve syn group q s s' ↔
      SynchronisesWith syn (sentPacket g 10) (sentPacket f) := by
  constructor
  · intro ⟨u', f', g', hu', hf', hg', hsync⟩
    obtain rfl := Option.some.inj (hu.symm.trans hu')
    rw [hf, List.append_cancel_left_eq] at hf'
    rw [hg, List.append_cancel_left_eq] at hg'
    rwa [← (List.cons.inj hf').1, ← (List.cons.inj hg').1] at hsync
  · exact fun hsync => ⟨u, f, g, hu, hf, hg, hsync⟩

end Requests

/-- **The request for a synchronous electrical diagram.** -/
theorem requestsAgree_iff (h : Host) (mc : Machine) (reserve : Nat → UInt8) (syn : SynInfo)
    (group register : UInt16) (q : Nat → UInt8) (s s' : Rtu) (hg : 1 ≤ group.toNat)
    (hg8 : group.toNat ≤ 8) (hpoints : 2 ≤ syn.samplePoints.toNat)
    (hread : ReadsAs h.env s group.toNat loadSampleModeAddr [register])
    (hread' : ReadsAs h.env s' group.toNat loadSampleModeAddr [register])
    (hq : LoadRoutine group.toNat q)
    (hjudge : (judgeEqMeterPara group.toNat loadNo s').1 = -1) :
    RequestsAgree h mc reserve syn group q s s' ↔ RequestFits register syn := by
  obtain ⟨u, f, g, hu, hf, hload, hiff⟩ :=
    requests_sent h mc reserve syn group hg hg8 hpoints hread hread' hq hjudge
  exact (RequestsAgree.iff_of_sent hu hf hload).trans hiff

/-- A unit whose cells all hold `v`. -/
def modeUnit (v : UInt16) : Rtu :=
  .start { emptyMap 2000 (fun _ => 0) (fun _ => 0) with
    ramXMapType := fun _ => .ram
    ramX := fun _ => v }

theorem modeUnit_readsAs (v : UInt16) :
    ReadsAs (.bare fun _ => none) (modeUnit v) 1 loadSampleModeAddr [v] :=
  fun _ =>
    (zigbeeReadRegisters_one (by decide) (by decide)).trans (if_pos (show 692 < 2000 by decide))

theorem loadRoutine_routineFrame : LoadRoutine 1 (routineFrame 1 1) := ⟨rfl, rfl, rfl, rfl, rfl⟩

theorem modeUnit_requestsAgree_iff :
    RequestsAgree (.bare (.bare fun _ => none)) zeroMachine (fun _ => 0) ⟨5, 6000, 200⟩ 1
      (routineFrame 1 1) (modeUnit 0) (modeUnit 0) ↔ RequestFits 0 ⟨5, 6000, 200⟩ :=
  requestsAgree_iff (.bare (.bare fun _ => none)) zeroMachine (fun _ => 0) ⟨5, 6000, 200⟩ 1 0
    (routineFrame 1 1) (modeUnit 0) (modeUnit 0) (by decide) (by decide) (by decide)
    (modeUnit_readsAs 0) (modeUnit_readsAs 0) loadRoutine_routineFrame (by decide)

/-- With mode 1 the load meter is asked for mode 1, and the electrical meter for mode 0. -/
theorem not_requestsAgree : ¬ ∀ (h : Host) (mc : Machine) (reserve : Nat → UInt8) (syn : SynInfo)
    (group register : UInt16) (q : Nat → UInt8) (s s' : Rtu), 1 ≤ group.toNat → group.toNat ≤ 8 →
    2 ≤ syn.samplePoints.toNat → ReadsAs h.env s group.toNat loadSampleModeAddr [register] →
    ReadsAs h.env s' group.toNat loadSampleModeAddr [register] → LoadRoutine group.toNat q →
    (judgeEqMeterPara group.toNat loadNo s').1 = -1 →
    RequestsAgree h mc reserve syn group q s s' := by
  intro h
  have hread := modeUnit_readsAs 1
  obtain ⟨u, f, g, hu, hf, hload, hiff⟩ := requests_sent (.bare (.bare fun _ => none))
    zeroMachine (fun _ => 0) ⟨5, 6000, 200⟩ 1 (by decide) (by decide) (by decide) hread hread
    loadRoutine_routineFrame (by decide)
  have hagree := h (.bare (.bare fun _ => none)) zeroMachine (fun _ => 0) ⟨5, 6000, 200⟩ 1 1
    (routineFrame 1 1) (modeUnit 1) (modeUnit 1) (by decide) (by decide) (by decide) hread hread
    loadRoutine_routineFrame (by decide)
  exact (hiff.1 ((RequestsAgree.iff_of_sent hu hf hload).1 hagree)).mode.2.1 rfl

end RtuA118
