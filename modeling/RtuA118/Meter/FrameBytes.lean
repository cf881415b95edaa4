import RtuA118.Lib.View
import RtuA118.Meter.OwnWell

/-!
# RtuA118.Meter.FrameBytes

Is a wireless frame interpreted from its own bytes? The decoders are not given the
length of what was received: each lays its structure over the buffer, and a frame
shorter than the structure is filled up with what an earlier frame left there.

`PacketKind.reach` is how far into the packet a decoder looks. `frame_settled_iff`
says that a frame decides what the unit does exactly when it holds every byte looked
at (`OwnBytes`): the bytes below the reach suffice (`runCalls_congr_reach`), and the
last of them is never idle (`exists_change`).
-/

namespace RtuA118

open View (AgreesOn Settled extend agreesOn_extend extend_of_lt extend_of_ge)

/-! ### How far a decoder looks -/

/-- The size of a routine packet. -/
@[simp] def Meter.reach : Meter → Nat
  | .pressure _ | .temperature => 20
  | .torqueSpeedLoad => 28
  | .flowMeter _ | .load => 24
  | .electricalParam => 60

/-- The bytes of a packet that matter. A diagram for a group without a well is
acknowledged and stored nowhere. -/
@[simp] def PacketKind.reach (p : Nat → UInt8) : PacketKind → Nat
  | .routine m => m.reach
  | .answerOnly _ _ | .para _ => 10
  | .loadFirst => 24
  | .electricalFirst => 11
  | .loadDiagram _ | .electricalDiagram _ => if GroupOk p then 72 else 11

/-- The frame holds every byte that matters, whatever follows it. -/
def OwnBytes (frame : List UInt8) : Prop :=
  frame.getD 3 0 ≠ zigbeeRcvDataFramid ∨
    ∀ g k, kindOf (packetOf (extend frame g)) = some k →
      21 + k.reach (packetOf (extend frame g)) ≤ frame.length

/-- The registers, the packets sent and the messages posted after a frame. -/
def meterEffect (env : Platform) (mc : Machine) (q : Nat → UInt8) (s : Rtu) :
    MapT × List (List UInt8) × List (Queue × Msg) :=
  let s' := (analysisZigbeeRcvData env mc q s).2
  (s'.map, s'.radio, s'.posted)

theorem ten_le_reach (p : Nat → UInt8) (k : PacketKind) : 10 ≤ k.reach p := by
  cases k with
  | routine m => cases m <;> simp
  | loadDiagram i =>
      rw [PacketKind.reach]
      split <;> simp
  | electricalDiagram i =>
      rw [PacketKind.reach]
      split <;> simp
  | _ => simp

/-! ### Packets that agree below some byte -/

section Congr

variable {p p' : Nat → UInt8} {n : Nat} (h : ∀ i < n, p i = p' i)

include h

theorem header_congr (hn : 10 ≤ n) : protocolType p = protocolType p' ∧
    sensorType p = sensorType p' ∧ sensorGroup p = sensorGroup p' ∧ sensorNum p = sensorNum p' ∧
    dataTyped p = dataTyped p' := by
  unfold protocolType sensorType sensorGroup sensorNum dataTyped
  rw [h 0 (by omega), h 1 (by omega), h 4 (by omega), h 5 (by omega), h 6 (by omega),
    h 7 (by omega), h 8 (by omega), h 9 (by omega)]
  exact ⟨rfl, rfl, rfl, rfl, rfl⟩

theorem groupOk_congr (hn : 10 ≤ n) : GroupOk p = GroupOk p' := by
  unfold GroupOk
  rw [(header_congr h hn).2.2.1]

/-- The index behind the header counts in diagrams only. -/
theorem kindOf_congr (hn : 10 ≤ n)
    (h10 : 11 ≤ n ∨ dataTyped p ≠ dataTypeIntergrationLoadDiagram ∧
      dataTyped p ≠ dataTypeElectricityDiagram) : kindOf p = kindOf p' := by
  obtain ⟨hproto, htype, -, hnum, hdata⟩ := header_congr h hn
  have hgroup := groupOk_congr h hn
  unfold kindOf pressureKind temperatureKind torqueSpeedLoadKind flowMeterKind loadKind
    electricalParamKind
  rcases h10 with h11 | ⟨hl, he⟩
  · simp only [hproto, htype, hnum, hdata, hgroup, h 10 (by omega)]
  · simp only [hdata] at hl he
    simp only [hproto, htype, hnum, hdata, hgroup, hl, he, false_and, if_false]

theorem swappedAt_congr (k : Nat) (hk : k + 2 ≤ n) : swappedAt p k = swappedAt p' k := by
  unfold swappedAt
  rw [h k (by omega), h (k + 1) (by omega)]

theorem fp32At_congr (k : Nat) (hk : k + 4 ≤ n) : fp32At p k = fp32At p' k := by
  unfold fp32At
  rw [h k (by omega), h (k + 1) (by omega), h (k + 2) (by omega), h (k + 3) (by omega)]

theorem saveMeterInfo_congr (addr : Nat) (hn : 16 ≤ n) :
    saveMeterInfo p addr = saveMeterInfo p' addr := by
  unfold saveMeterInfo meterInfoWords
  rw [swappedAt_congr h 2 (by omega), swappedAt_congr h 4 (by omega),
    swappedAt_congr h 12 (by omega), swappedAt_congr h 14 (by omega),
    h 6 (by omega), h 7 (by omega), h 10 (by omega), h 11 (by omega)]

theorem storeReadings_congr (addr : Nat) (offs : List Nat) (hoffs : ∀ k ∈ offs, k + 4 ≤ n) :
    storeReadings p addr offs = storeReadings p' addr offs := by
  unfold storeReadings
  rw [List.flatMap_congr fun k hk => by rw [fp32At_congr h k (hoffs k hk)]]

theorem diagramWords_congr (hn : 72 ≤ n) : diagramWords p = diagramWords p' := by
  unfold diagramWords
  refine List.map_congr_left fun k hk => swappedAt_congr h _ ?_
  have := List.mem_range.1 hk
  omega

end Congr

theorem Meter.calls_congr {mc : Machine} {p p' : Nat → UInt8} {m : Meter}
    (h : ∀ i < m.reach, p i = p' i) : m.calls mc p = m.calls mc p' := by
  cases m with
  | pressure n =>
      have h : ∀ i < 20, p i = p' i := h
      simp only [Meter.calls, saveMeterInfo_congr h _ (by decide),
        storeReadings_congr h _ [16] (by decide)]
  | temperature =>
      have h : ∀ i < 20, p i = p' i := h
      simp only [Meter.calls, saveMeterInfo_congr h _ (by decide),
        storeReadings_congr h _ [16] (by decide)]
  | torqueSpeedLoad =>
      have h : ∀ i < 28, p i = p' i := h
      simp only [Meter.calls, saveMeterInfo_congr h _ (by decide),
        storeReadings_congr h _ [24, 16, 20] (by decide)]
  | flowMeter n =>
      have h : ∀ i < 24, p i = p' i := h
      simp only [Meter.calls, storeReadings_congr h _ [16] (by decide),
        storeReadings_congr h _ [20] (by decide)]
  | load =>
      have h : ∀ i < 24, p i = p' i := h
      simp only [Meter.calls, saveMeterInfo_congr h _ (by decide),
        storeReadings_congr h _ [20, 16] (by decide)]
  | electricalParam =>
      have h : ∀ i < 60, p i = p' i := h
      simp only [Meter.calls, saveMeterInfo_congr h _ (by decide),
        storeReadings_congr h _ [16, 20, 24, 28, 32, 36] (by decide),
        storeReadings_congr h _ [40] (by decide), storeReadings_congr h _ [44] (by decide),
        storeReadings_congr h _ [48] (by decide), fp32At_congr h 52 (by decide),
        fp32At_congr h 56 (by decide)]

/-- A well the unit does not have takes no words. -/
theorem writeWords_refused {env : Platform} {w addr : Nat} {words : List UInt16} {s : Rtu}
    (hw : ¬ (0 < w ∧ w < maxWellNum + 1)) : writeWords env w addr words s = s := by
  have hbad : ¬ cellArgsOk s.map words.length w addr = true := by
    intro hok
    obtain ⟨h8, h1, -⟩ := cellArgsOk_iff.1 hok
    exact hw ⟨by omega, by unfold maxWellNum; omega⟩
  rw [writeWords_eq, if_neg hbad]

theorem MeterCall.run_store_refused {env : Platform} {mc : Machine} {o : Origin} {s : Rtu}
    {addr : Nat} {words : List UInt16}
    (hg : ¬ (0 < o.group.toNat ∧ o.group.toNat < maxWellNum + 1)) :
    (MeterCall.store addr words).run env mc o s = s := writeWords_refused hg

/-- A diagram for no well is acknowledged, and that is all. -/
theorem runCalls_diagram_refused {env : Platform} {mc : Machine} {o : Origin} {s : Rtu}
    {a b c i : Nat} {us vs : List UInt16} {dataType : UInt16} {index : UInt8}
    (hg : ¬ (0 < o.group.toNat ∧ o.group.toNat < maxWellNum + 1)) :
    runCalls env mc o ([.store a us, .store b vs, .ack dataType index] ++
        if i = 14 then [.saveTime c] else []) s
      = (MeterCall.ack dataType index).run env mc o s := by
  rw [List.cons_append, runCalls_cons, MeterCall.run_store_refused hg, List.cons_append,
    runCalls_cons, MeterCall.run_store_refused hg, List.cons_append, runCalls_cons, List.nil_append]
  split
  · exact writeWords_refused hg
  · rfl

/-- **The bytes below the reach decide what the calls do.** -/
theorem runCalls_congr_reach {env : Platform} {mc : Machine} {o : Origin} {p p' : Nat → UInt8}
    {k : PacketKind} {s : Rtu} (ho : o.group = sensorGroup p) (h : ∀ i < k.reach p, p i = p' i) :
    runCalls env mc o (k.calls mc p) s = runCalls env mc o (k.calls mc p') s := by
  cases k with
  | routine m => rw [PacketKind.calls, Meter.calls_congr h, PacketKind.calls]
  | answerOnly slot intervalAddr => rfl
  | para addr => rfl
  | loadFirst =>
      have h : ∀ i < 24, p i = p' i := h
      simp only [PacketKind.calls, swappedAt_congr h 14 (by decide),
        swappedAt_congr h 18 (by decide), swappedAt_congr h 20 (by decide),
        swappedAt_congr h 22 (by decide), h 10 (by decide)]
  | electricalFirst =>
      have h : ∀ i < 11, p i = p' i := h
      simp only [PacketKind.calls, h 10 (by decide)]
  | loadDiagram i =>
      by_cases hg : GroupOk p
      · have h : ∀ i < 72, p i = p' i := by simpa [PacketKind.reach, hg] using h
        simp only [PacketKind.calls, diagramWords_congr h (by decide), h 10 (by decide)]
      · have h : ∀ i < 11, p i = p' i := by simpa [PacketKind.reach, hg] using h
        have hg : ¬ (0 < o.group.toNat ∧ o.group.toNat < maxWellNum + 1) := ho ▸ hg
        simp only [PacketKind.calls, runCalls_diagram_refused hg, h 10 (by decide)]
  | electricalDiagram i =>
      by_cases hg : GroupOk p
      · have h : ∀ i < 72, p i = p' i := by simpa [PacketKind.reach, hg] using h
        simp only [PacketKind.calls, diagramWords_congr h (by decide), h 10 (by decide)]
      · have h : ∀ i < 11, p i = p' i := by simpa [PacketKind.reach, hg] using h
        have hg : ¬ (0 < o.group.toNat ∧ o.group.toNat < maxWellNum + 1) := ho ▸ hg
        simp only [PacketKind.calls, runCalls_diagram_refused hg, h 10 (by decide)]

/-! ### Where packets come from -/

/-- The same sender, as far as the unit looks at its address. -/
structure SameOrigin (o o' : Origin) : Prop where
  mac : ∀ k < 10, o.mac k = o'.mac k
  group : o.group = o'.group
  num : o.num = o'.num

theorem zigbeeSendPacket_congr {mac mac' : Nat → UInt8} (h : ∀ k < 10, mac k = mac' k) :
    zigbeeSendPacket mac = zigbeeSendPacket mac' := by
  have hmac : (List.range 8).map mac = (List.range 8).map mac' :=
    List.map_congr_left fun k hk => h k (Nat.lt_trans (List.mem_range.1 hk) (by decide))
  unfold zigbeeSendPacket
  rw [hmac]

theorem keepMac_congr {o o' : Origin} (h : SameOrigin o o') : keepMac o = keepMac o' := by
  funext s
  unfold keepMac
  rw [h.group]
  congr 1
  funext i k
  by_cases hk : i = o'.group.toNat - 1 ∧ k < 10
  · rw [if_pos hk, if_pos hk, h.mac k hk.2]
  · rw [if_neg hk, if_neg hk]

theorem MeterCall.run_congr {env : Platform} {mc : Machine} {o o' : Origin} (h : SameOrigin o o') :
    MeterCall.run env mc o = MeterCall.run env mc o' := by
  funext s c
  cases c <;> simp only [MeterCall.run, answerRoutine, answerLoadRoutine, keepMac_congr h, h.group,
    h.num, zigbeeSendPacket_congr h.mac]

theorem runCalls_congr_origin {env : Platform} {mc : Machine} {o o' : Origin} {cs : List MeterCall}
    {s : Rtu} (h : SameOrigin o o') : runCalls env mc o cs s = runCalls env mc o' cs s := by
  unfold runCalls
  rw [MeterCall.run_congr h]

/-! ### Enough bytes -/

/-- A packet taken without its eleventh byte is no diagram. -/
theorem reach_or_data {p : Nat → UInt8} {k : PacketKind} (hk : kindOf p = some k) :
    11 ≤ k.reach p ∨ dataTyped p ≠ dataTypeIntergrationLoadDiagram ∧
      dataTyped p ≠ dataTypeElectricityDiagram := by
  have ht := kindOf_tested hk
  cases k with
  | routine m => cases m <;> simp
  | answerOnly slot intervalAddr =>
      have hdata : dataTyped p = dataTypeRoutineData := ht
      exact .inr (by simp [hdata])
  | para addr =>
      obtain ⟨-, hdata | hdata, -⟩ := ht
      · exact .inr (by simp [hdata])
      · exact .inr (by simp [hdata])
  | loadFirst => simp
  | electricalFirst => simp
  | loadDiagram i =>
      refine .inl ?_
      rw [PacketKind.reach]
      split <;> simp
  | electricalDiagram i =>
      refine .inl ?_
      rw [PacketKind.reach]
      split <;> simp

section Enough

variable {env : Platform} {mc : Machine} {frame : List UInt8} {q q' : Nat → UInt8} {s : Rtu}

/-- A packet taken for something, with every byte that matters in the frame, is taken
for the same in every other buffer that starts with the frame, to the same effect. -/
theorem runCalls_of_agrees (hq : AgreesOn frame q) (hq' : AgreesOn frame q') {k : PacketKind}
    (hk : kindOf (packetOf q) = some k) (hlen : 21 + k.reach (packetOf q) ≤ frame.length) :
    runCalls env mc (originOf q) (packetCalls mc (packetOf q)) s
      = runCalls env mc (originOf q') (packetCalls mc (packetOf q')) s := by
  have hten := ten_le_reach (packetOf q) k
  have hagree : ∀ i < k.reach (packetOf q), packetOf q i = packetOf q' i :=
    fun i hi => hq.eq hq' (by omega)
  have hheader := header_congr hagree hten
  have hk' : kindOf (packetOf q') = some k := by
    rw [← hk, ← kindOf_congr hagree hten (reach_or_data hk)]
  have horigin : SameOrigin (originOf q) (originOf q') :=
    ⟨fun i hi => hq.eq hq' (by omega), hheader.2.2.1, hheader.2.2.2.1⟩
  rw [packetCalls_of_kind hk, packetCalls_of_kind hk', ← runCalls_congr_origin horigin]
  exact runCalls_congr_reach rfl hagree

/-- **A frame with all bytes that matter decides everything.** -/
theorem settled_of_ownBytes (env : Platform) (mc : Machine) (hn : 4 ≤ frame.length)
    (h : OwnBytes frame) :
    Settled frame fun q => (analysisZigbeeRcvData env mc q s).2 := by
  intro q q' hq hq'
  have hid : q 3 = q' 3 := hq.eq hq' (by omega)
  have hkinds : ∀ r, AgreesOn frame r → r 3 = zigbeeRcvDataFramid →
      ∀ k, kindOf (packetOf r) = some k → 21 + k.reach (packetOf r) ≤ frame.length := by
    intro r hr hr3 k hk
    rcases h with h | h
    · exact absurd ((hr.getD (by omega)).symm.trans hr3) h
    · rw [← hr.extend_eq] at hk ⊢
      exact h r k hk
  by_cases hq3 : q 3 = zigbeeRcvDataFramid
  · dsimp only
    rw [analysis_eq env mc s hq3, analysis_eq env mc s (hid ▸ hq3)]
    cases hk : kindOf (packetOf q) with
    | some k => exact runCalls_of_agrees hq hq' hk (hkinds q hq hq3 k hk)
    | none =>
        cases hk' : kindOf (packetOf q') with
        | some k => exact (runCalls_of_agrees hq' hq hk' (hkinds q' hq' (hid ▸ hq3) k hk')).symm
        | none => rw [packetCalls_of_none hk, packetCalls_of_none hk']; rfl
  · dsimp only
    rw [analysis_other env mc s hq3, analysis_other env mc s (hid ▸ hq3)]

end Enough

/-! ### Every byte counts -/

/-- A last store of `p` and one of `p'` at the same place with different words. -/
structure StoresDiffer (mc : Machine) (p p' : Nat → UInt8) : Prop where
  differ : ∃ addr words words' i, StoresLast mc p addr words ∧ StoresLast mc p' addr words' ∧
    i < words.length ∧ words'.length = words.length ∧ addr + words.length ≤ 2000 ∧
    words.getD i 0 ≠ words'.getD i 0

/-- Two readings whose last bytes differ. -/
theorem storesDiffer_of_readings {mc : Machine} {p p' : Nat → UInt8} {m : Meter} {addr off : Nat}
    {offs : List Nat} (hk : kindOf p = some (.routine m)) (hk' : kindOf p' = some (.routine m))
    (hr : (addr, off :: offs) ∈ m.readings) (hfit : addr + 2 * (off :: offs).length ≤ 2000)
    (hne : p (off + 3) ≠ p' (off + 3)) : StoresDiffer mc p p' := by
  have hlen := readingWords_length p (off :: offs)
  have hlen' := readingWords_length p' (off :: offs)
  have hpos : 0 < (off :: offs).length := Nat.succ_pos _
  have h1 := (readingWords_getD p 0 hpos).2
  have h1' := (readingWords_getD p' 0 hpos).2
  refine ⟨addr, _, _, 1, storesLast_of_routine mc hk hr, storesLast_of_routine mc hk' hr, ?_,
    hlen'.trans hlen.symm, by omega, fun heq => hne ?_⟩
  · rw [hlen, List.length_cons]
    omega
  · exact (wordOfBytes_inj.1 (h1.symm.trans (heq.trans h1'))).1

/-- The power stored last from an electrical packet. -/
theorem storesLast_reactivePower (mc : Machine) {p : Nat → UInt8}
    (h : kindOf p = some (.routine .electricalParam)) :
    StoresLast mc p elecReactivePowerRtdataAddr (swapRcvFloatSeq (fp32At p 56)).words := by
  refine ⟨(kindOf_tested h).1, ?_⟩
  rw [packetCalls_of_kind h]
  refine ⟨[_, _, _, _, _, _, _, _], [_], rfl, fun c hc k hk => ?_⟩
  obtain rfl := List.mem_singleton.1 hc
  simp at hk ⊢
  omega

/-- The second half of a diagram packet: only an acknowledgement and the time, which
lies behind the diagram, follow it. -/
theorem storesLast_diagram {mc : Machine} {p : Nat → UInt8} {i addr timeAddr : Nat}
    {first : MeterCall} {dataType : UInt16} (hg : GroupOk p) (hi : i < 15)
    (hbehind : addr + 210 ≤ timeAddr) (hcalls : packetCalls mc p =
      [first, .store (addr + (i - 1) * 15) ((diagramWords p).drop 15), .ack dataType (p 10)] ++
        if i = 14 then [.saveTime timeAddr] else []) :
    StoresLast mc p (addr + (i - 1) * 15) ((diagramWords p).drop 15) := by
  refine ⟨hg, ?_⟩
  rw [hcalls]
  refine ⟨[_], _, rfl, fun c hc k hk => ?_⟩
  simp [diagramWords] at hk
  simp at hc
  rcases hc with rfl | ⟨-, rfl⟩
  · exact fun hcov => hcov
  · simp
    omega

/-- Two diagrams whose last bytes differ. -/
theorem storesDiffer_of_diagrams {mc : Machine} {p p' : Nat → UInt8} {addr : Nat}
    (h : StoresLast mc p addr ((diagramWords p).drop 15))
    (h' : StoresLast mc p' addr ((diagramWords p').drop 15)) (hfit : addr + 15 ≤ 2000)
    (hne : p 71 ≠ p' 71) : StoresDiffer mc p p' := by
  have hlast : ∀ r : Nat → UInt8, ((diagramWords r).drop 15).getD 14 0
      = wordOfBytes (r 71) (r 70) := by
    intro r
    have hword : ((diagramWords r).drop 15).getD 14 0 = swappedAt r 70 := by
      simp [diagramWords, List.getD]
    rw [hword, swappedAt, swapInt16_wordOfBytes]
  have hlen : ∀ r : Nat → UInt8, ((diagramWords r).drop 15).length = 15 := by
    intro r
    simp [diagramWords]
  refine ⟨addr, _, _, 14, h, h', by rw [hlen]; decide, (hlen p').trans (hlen p).symm,
    by rw [hlen]; exact hfit, fun heq => hne ?_⟩
  rw [hlast, hlast] at heq
  exact (wordOfBytes_inj.1 heq).1

theorem storesDiffer_of_kind {mc : Machine} {p p' : Nat → UInt8} {k : PacketKind}
    (hk : kindOf p = some k) (hk' : kindOf p' = some k) (hg : GroupOk p) (hg' : GroupOk p')
    (hreach : 12 ≤ k.reach p) (hfirst : k ≠ .loadFirst)
    (hne : p (k.reach p - 1) ≠ p' (k.reach p - 1)) : StoresDiffer mc p p' := by
  have ht := kindOf_tested hk
  cases k with
  | routine m =>
      obtain ⟨-, -, hn⟩ := ht
      cases m with
      | pressure n =>
          have hn : 1 ≤ n ∧ n ≤ 3 := hn
          exact storesDiffer_of_readings hk hk' (List.mem_singleton.2 rfl) (by simp; omega) hne
      | temperature =>
          exact storesDiffer_of_readings hk hk' (List.mem_singleton.2 rfl) (by simp) hne
      | torqueSpeedLoad =>
          exact storesDiffer_of_readings hk hk' (List.mem_singleton.2 rfl) (by simp) hne
      -- the byte is in the rate, the second reading
      | flowMeter n =>
          have hn : n = 1 ∨ n = 2 := hn
          exact storesDiffer_of_readings hk hk' (.tail _ (List.mem_singleton.2 rfl))
            (by simp; omega) hne
      | load => exact storesDiffer_of_readings hk hk' (List.mem_singleton.2 rfl) (by simp) hne
      | electricalParam =>
          refine ⟨_, _, _, 0, storesLast_reactivePower mc hk, storesLast_reactivePower mc hk',
            by simp, rfl, by simp, fun heq => hne ?_⟩
          exact (wordOfBytes_inj.1 heq).1
  | loadDiagram i =>
      have hi : i < 15 := ht.2.2.2
      refine storesDiffer_of_diagrams
        (storesLast_diagram hg hi (by decide) (packetCalls_of_kind hk))
        (storesLast_diagram hg' hi (by decide) (packetCalls_of_kind hk')) (by simp; omega) ?_
      simpa [hg] using hne
  | electricalDiagram i =>
      have hi : i < 15 := ht.2.2.2
      refine storesDiffer_of_diagrams
        (storesLast_diagram hg hi (by decide) (packetCalls_of_kind hk))
        (storesLast_diagram hg' hi (by decide) (packetCalls_of_kind hk')) (by simp; omega) ?_
      simpa [hg] using hne
  | loadFirst => exact absurd rfl hfirst
  | answerOnly slot intervalAddr => simp at hreach
  | para addr => simp at hreach
  | electricalFirst => simp at hreach

/-! ### What can be seen of it -/

/-- A unit all of whose cells live in `ram_x` and hold `v`. -/
def evenUnit (v : UInt16) : Rtu :=
  .start { emptyMap 2000 (fun _ => 0) (fun _ => 0) with
    ramX := fun _ => v
    ramXMapType := fun _ => .ram }

section Seen

variable {env : Platform} {mc : Machine} {q q' : Nat → UInt8} {k : PacketKind}

theorem meterEffect_ne_of_storesDiffer (hid : q 3 = zigbeeRcvDataFramid)
    (hid' : q' 3 = zigbeeRcvDataFramid)
    (hgroup : sensorGroup (packetOf q) = sensorGroup (packetOf q'))
    (h : StoresDiffer mc (packetOf q) (packetOf q')) :
    meterEffect env mc q (evenUnit 0) ≠ meterEffect env mc q' (evenUnit 0) := by
  obtain ⟨addr, words, words', i, hs, hs', hi, hlen, hfit, hne⟩ := h
  intro heq
  have h1 := hs.stored env (s := evenUnit 0) hid hfit hi (fun _ _ => goes_of_ram rfl) rfl
  have h2 := hs'.stored env (s := evenUnit 0) hid' (by rw [hlen]; exact hfit)
    (by rw [hlen]; exact hi) (fun _ _ => goes_of_ram rfl) rfl
  have hmap : (analysisZigbeeRcvData env mc q (evenUnit 0)).2.map
      = (analysisZigbeeRcvData env mc q' (evenUnit 0)).2.map := congrArg Prod.fst heq
  rw [← hgroup, ← hmap] at h2
  exact hne (h1.symm.trans h2)

/-- A packet nobody takes changes nothing. -/
theorem meterEffect_of_none {s : Rtu} (h : kindOf (packetOf q) = none) :
    meterEffect env mc q s = (s.map, s.radio, s.posted) := by
  by_cases hid : q 3 = zigbeeRcvDataFramid
  · unfold meterEffect
    rw [analysis_eq env mc s hid, packetCalls_of_none h]
    rfl
  · unfold meterEffect
    rw [analysis_other env mc s hid]

/-- A packet taken for something without its reading is seen by its answer or its
store. -/
theorem acts_of_short (env : Platform) (mc : Machine) (hid : q 3 = zigbeeRcvDataFramid)
    (hk : kindOf (packetOf q) = some k) (hreach : k.reach (packetOf q) ≤ 11) :
    ∃ s, meterEffect env mc q s ≠ (s.map, s.radio, s.posted) := by
  have ht := kindOf_tested hk
  -- an answer on the air is enough to tell the two apart
  have hradio : ∀ s frame, (runCalls env mc (originOf q) (packetCalls mc (packetOf q)) s).radio
      = s.radio ++ [frame] → meterEffect env mc q s ≠ (s.map, s.radio, s.posted) := by
    intro s frame hr heq
    have h : (analysisZigbeeRcvData env mc q s).2.radio = s.radio :=
      congrArg (fun e => e.2.1) heq
    rw [analysis_eq env mc s hid, hr] at h
    simp at h
  rw [packetCalls_of_kind hk] at hradio
  cases k with
  | answerOnly slot intervalAddr =>
      obtain ⟨frame, hr⟩ := (answerRoutine_answers env (originOf q) slot intervalAddr 10
        (fun s => show Keeps s (id s) from ⟨rfl, rfl, rfl, rfl⟩) (evenUnit 0)).radio
      exact ⟨evenUnit 0, hradio _ frame hr⟩
  | para addr =>
      obtain ⟨hg, -, hlo, hhi⟩ := ht
      have hlen : (paramWords mc).length = 43 := by simp [paramWords]
      have hlast : StoresLast mc (packetOf q) addr (paramWords mc) :=
        ⟨hg, [], [], packetCalls_of_kind hk, fun c hc => absurd hc List.not_mem_nil⟩
      simp at hhi
      -- the unit starts with another word than the one stored
      refine ⟨evenUnit ((paramWords mc).getD 0 0 + 1), fun heq => ?_⟩
      have h := hlast.stored env (s := evenUnit ((paramWords mc).getD 0 0 + 1)) (k := 0) hid
        (by rw [hlen]; exact (show addr + 43 ≤ 2000 by omega)) (by rw [hlen]; decide)
        (fun _ _ => goes_of_ram rfl) rfl
      have hmap : (analysisZigbeeRcvData env mc q (evenUnit ((paramWords mc).getD 0 0 + 1))).2.map
          = (evenUnit ((paramWords mc).getD 0 0 + 1)).map := congrArg Prod.fst heq
      rw [hmap] at h
      have hbad : (paramWords mc).getD 0 0 + 1 = (paramWords mc).getD 0 0 := h
      simp at hbad
  | electricalFirst =>
      obtain ⟨frame, hr⟩ := (MeterCall.ack_answers env mc (originOf q)
        dataTypeRtuAckWlElectricityDiagramData (packetOf q 10) (evenUnit 0)).radio
      exact ⟨evenUnit 0, hradio _ frame hr⟩
  | loadDiagram i =>
      have hg : ¬ GroupOk (packetOf q) := fun hg => by simp [hg] at hreach
      obtain ⟨frame, hr⟩ := (MeterCall.ack_answers env mc (originOf q)
        dataTypeRtuAckIntergrationDiagramData (packetOf q 10) (evenUnit 0)).radio
      refine ⟨evenUnit 0, hradio _ frame ?_⟩
      rw [PacketKind.calls, runCalls_diagram_refused (o := originOf q) hg, hr]
  | electricalDiagram i =>
      have hg : ¬ GroupOk (packetOf q) := fun hg => by simp [hg] at hreach
      obtain ⟨frame, hr⟩ := (MeterCall.ack_answers env mc (originOf q)
        dataTypeRtuAckWlElectricityDiagramData (packetOf q 10) (evenUnit 0)).radio
      refine ⟨evenUnit 0, hradio _ frame ?_⟩
      rw [PacketKind.calls, runCalls_diagram_refused (o := originOf q) hg, hr]
  | loadFirst => simp at hreach
  | routine m => cases m <;> simp at hreach

/-- The data types known end in another byte than `0xFF`. -/
theorem dataTyped_mod {p : Nat → UInt8} (hk : kindOf p = some k) : dataTyped p % 256 ≠ 255 := by
  have ht := kindOf_tested hk
  cases k with
  | routine m => simp [ht.2.1]
  | answerOnly slot intervalAddr => simp [show dataTyped p = _ from ht]
  | para addr => rcases ht.2.1 with h | h <;> simp [h]
  | loadFirst => simp [ht.2.1]
  | loadDiagram i => simp [ht.1]
  | electricalFirst => simp [ht.2.1]
  | electricalDiagram i => simp [ht.1]

/-- A diagram packet has an index below 15. -/
theorem index_lt {p : Nat → UInt8} (hk : kindOf p = some k)
    (hdata : dataTyped p = dataTypeIntergrationLoadDiagram ∨
      dataTyped p = dataTypeElectricityDiagram) : (p 10).toNat < 15 := by
  have ht := kindOf_tested hk
  cases k with
  | routine m => simp [ht.2.1] at hdata
  | answerOnly slot intervalAddr => simp [show dataTyped p = _ from ht] at hdata
  | para addr => rcases ht.2.1 with h | h <;> simp [h] at hdata
  | loadFirst => simp [ht.2.2]
  | loadDiagram i => exact ht.2.1 ▸ ht.2.2.2
  | electricalFirst => simp [ht.2.2]
  | electricalDiagram i => exact ht.2.1 ▸ ht.2.2.2

/-- What is taken after eleven bytes is a diagram. -/
theorem data_of_eleven {p : Nat → UInt8} (hk : kindOf p = some k) (h11 : 10 < k.reach p)
    (hreach : k.reach p ≤ 11) : dataTyped p = dataTypeIntergrationLoadDiagram ∨
      dataTyped p = dataTypeElectricityDiagram := by
  have ht := kindOf_tested hk
  cases k with
  | routine m => cases m <;> simp at hreach
  | answerOnly slot intervalAddr => simp at h11
  | para addr => simp at h11
  | loadFirst => simp at hreach
  | loadDiagram i => exact .inl ht.1
  | electricalFirst => exact .inr ht.2.1
  | electricalDiagram i => exact .inr ht.1

/-- The packet with its last byte spoilt is taken for nothing. -/
theorem kindOf_spoilt {p : Nat → UInt8} (hk : kindOf p = some k) (hreach : k.reach p ≤ 11) :
    kindOf (Function.update p (k.reach p - 1) 0xFF) = none := by
  have hten := ten_le_reach p k
  cases hk' : kindOf (Function.update p (k.reach p - 1) 0xFF) with
  | none => rfl
  | some k' =>
      rcases Nat.lt_or_ge 10 (k.reach p) with h11 | h10
      · -- the index of a diagram
        rw [show k.reach p - 1 = 10 by omega] at hk'
        have hdata : dataTyped (Function.update p 10 0xFF) = dataTyped p := rfl
        have hdiagram := data_of_eleven hk h11 hreach
        exact absurd (index_lt hk' (by rw [hdata]; exact hdiagram))
          (by rw [Function.update_self]; decide)
      · -- the low byte of the data type
        rw [show k.reach p - 1 = 9 by omega] at hk'
        have hdata : dataTyped (Function.update p 9 0xFF) = 256 * (p 8).toNat + 255 := rfl
        exact absurd (by rw [hdata]; omega) (dataTyped_mod hk')

/-- The message of a diagram's first packet. -/
theorem posted_of_loadFirst (hid : q 3 = zigbeeRcvDataFramid)
    (hk : kindOf (packetOf q) = some .loadFirst) :
    (meterEffect env mc q (evenUnit 0)).2.2 = [(.rtuClient,
      .loadElecSysn (swappedAt (packetOf q) 14) (swappedAt (packetOf q) 22)
        (swappedAt (packetOf q) 18) (UInt16.ofNat (sensorGroup (packetOf q)).toNat))] := by
  have hram : (evenUnit 0).map.MeterCellsRam := fun _ _ _ _ _ _ => rfl
  exact (analysis_posted hram hid).trans (if_pos hk)

/-- Whoever looks behind the header stores for a group the unit has. -/
theorem groupOk_of_reach {p : Nat → UInt8} (hk : kindOf p = some k) (hreach : 12 ≤ k.reach p) :
    GroupOk p := by
  have ht := kindOf_tested hk
  cases k with
  | routine m => exact ht.1
  | loadFirst => exact ht.1
  | loadDiagram i =>
      by_contra hg
      simp [hg] at hreach
  | electricalDiagram i =>
      by_contra hg
      simp [hg] at hreach
  | answerOnly slot intervalAddr => simp at hreach
  | para addr => simp at hreach
  | electricalFirst => simp at hreach

theorem packetOf_update (q : Nat → UInt8) (i : Nat) (v : UInt8) :
    packetOf (Function.update q (21 + i) v) = Function.update (packetOf q) i v := by
  funext j
  by_cases hj : j = i
  · rw [hj, Function.update_self]
    exact Function.update_self ..
  · rw [Function.update_of_ne hj]
    exact Function.update_of_ne (by omega) ..

/-- **The last byte that matters is never idle**: with some other value of it the
unit does something else. -/
theorem exists_change (env : Platform) (mc : Machine) (hid : q 3 = zigbeeRcvDataFramid)
    (hk : kindOf (packetOf q) = some k) :
    ∃ v s, meterEffect env mc q s
      ≠ meterEffect env mc (Function.update q (21 + (k.reach (packetOf q) - 1)) v) s := by
  have hten := ten_le_reach (packetOf q) k
  obtain ⟨n, hn⟩ : ∃ n, n = k.reach (packetOf q) := ⟨_, rfl⟩
  rw [← hn] at hten ⊢
  rcases Nat.lt_or_ge n 12 with h11 | h12
  · -- a packet without readings is spoilt
    obtain ⟨s, hs⟩ := acts_of_short env mc hid hk (by omega)
    refine ⟨0xFF, s, ?_⟩
    rw [meterEffect_of_none (q := Function.update q (21 + (n - 1)) 0xFF)]
    · exact hs
    · rw [packetOf_update, hn]
      exact kindOf_spoilt hk (by omega)
  · -- any other value is stored or posted
    obtain ⟨p', hp'⟩ : ∃ p', p' = Function.update (packetOf q) (n - 1) (packetOf q (n - 1) + 1) :=
      ⟨_, rfl⟩
    have hagree : ∀ i < 11, packetOf q i = p' i := by
      intro i hi
      rw [hp', Function.update_of_ne (by omega)]
    have hne : packetOf q (n - 1) ≠ p' (n - 1) := by
      rw [hp', Function.update_self]
      simp
    have hk' : kindOf p' = some k := by
      rw [← kindOf_congr hagree (by decide) (.inl (Nat.le_refl _)), hk]
    have hg := groupOk_of_reach hk (by omega)
    have hg' : GroupOk p' := by
      rw [← groupOk_congr hagree (by decide)]
      exact hg
    refine ⟨packetOf q (n - 1) + 1, evenUnit 0, ?_⟩
    obtain ⟨q', hq'⟩ : ∃ q', q' = Function.update q (21 + (n - 1)) (packetOf q (n - 1) + 1) :=
      ⟨_, rfl⟩
    rw [← packetOf_update, ← hq'] at hp'
    have hid' : q' 3 = zigbeeRcvDataFramid := by
      rw [hq', Function.update_of_ne (by omega)]
      exact hid
    rw [← hq']
    subst hp'
    -- the first load frame is posted, not stored: the byte is the cycle's
    by_cases hfirst : k = .loadFirst
    · subst hfirst
      intro heq
      have hposted := congrArg (fun e => e.2.2) heq
      rw [posted_of_loadFirst hid hk, posted_of_loadFirst hid' hk'] at hposted
      obtain ⟨-, hcycle, -⟩ := Msg.loadElecSysn.inj (Prod.mk.inj (List.cons.inj hposted).1).2
      obtain rfl : n = 24 := hn
      rw [swappedAt, swappedAt, swapInt16_wordOfBytes, swapInt16_wordOfBytes] at hcycle
      exact hne (wordOfBytes_inj.1 hcycle).1
    · refine meterEffect_ne_of_storesDiffer hid hid' ?_ ?_
      · exact (header_congr hagree (by decide)).2.2.1
      · exact storesDiffer_of_kind hk hk' hg hg' (by omega) hfirst (hn ▸ hne)

end Seen

/-! ### Accepted frames -/

/-- The receiver asks for a byte beyond the delimiter and the length field. -/
theorem four_le_of_accepted {arrive : Nat → Nat} {stream frame : List UInt8}
    (h : receiveMsgZigbee arrive stream = some frame) : 4 ≤ frame.length := by
  rw [receiveMsgZigbee_eq] at h
  split at h
  · cases h
  · rename_i msg rest hcut
    split at h
    · obtain rfl := Option.some.inj h
      unfold FrameRule.cut at hcut
      split_ifs at hcut
      obtain ⟨rfl, -⟩ := Prod.mk.inj (Option.some.inj hcut)
      have hlen : zigbeeRule.frameLength stream
          = 3 + 0 + (be16 ((stream.take 3).getD 1 0) ((stream.take 3).getD 2 0) + 1) := rfl
      rw [List.length_take]
      omega
    · cases h

theorem ownBytes_of_settled {env : Platform} {mc : Machine} {frame : List UInt8}
    (hn : 4 ≤ frame.length) (h : ∀ s, Settled frame fun q => meterEffect env mc q s) :
    OwnBytes frame := by
  by_contra hnot
  unfold OwnBytes at hnot
  push Not at hnot
  obtain ⟨hid, g, k, hk, hshort⟩ := hnot
  have hid : extend frame g 3 = zigbeeRcvDataFramid := (extend_of_lt 0 (by omega)).trans hid
  obtain ⟨v, s, hne⟩ := exists_change env mc hid hk
  have hten := ten_le_reach (packetOf (extend frame g)) k
  have hagree := agreesOn_extend frame g
  exact hne (h s _ _ hagree (hagree.update v (by omega)))

/-- **A frame is interpreted from its own bytes exactly when it has them all.** -/
theorem frame_settled_iff (env : Platform) (mc : Machine) (frame : List UInt8)
    (hacc : ∃ arrive stream, receiveMsgZigbee arrive stream = some frame) :
    (∀ s, Settled frame fun q => meterEffect env mc q s) ↔ OwnBytes frame := by
  obtain ⟨arrive, stream, hrecv⟩ := hacc
  have hn := four_le_of_accepted hrecv
  refine ⟨ownBytes_of_settled hn, fun h s q q' hq hq' => ?_⟩
  have heq := settled_of_ownBytes env mc (s := s) hn h q q' hq hq'
  unfold meterEffect
  dsimp only at heq ⊢
  rw [heq]

/-- The shortest frame for the decoders: its only data byte is the frame type. -/
def shortestFrame : List UInt8 := [0x7E, 0x00, 0x01, 0x91, 0x6E]

theorem shortestFrame_accepted :
    receiveMsgZigbee (fun _ => 5) shortestFrame = some shortestFrame := by
  rw [receiveMsgZigbee_eq]
  decide

/-- What it does is what an earlier frame left behind it. -/
theorem shortestFrame_not_settled : ¬ ∀ (env : Platform) (mc : Machine) (frame : List UInt8),
    (∃ arrive stream, receiveMsgZigbee arrive stream = some frame) →
      ∀ s, Settled frame fun q => meterEffect env mc q s := by
  intro h
  have hs := h (.bare fun _ => none) zeroMachine shortestFrame ⟨_, _, shortestFrame_accepted⟩
    (evenUnit 0)
  have heq := hs _ _ (agreesOn_extend _ (routineFrame 3 1)) (agreesOn_extend _ fun _ => 0)
  have hradio := congrArg (fun e => e.2.1.length) heq
  revert hradio
  decide

theorem shortestFrame_settled_iff :
    (∀ s, Settled shortestFrame fun q => meterEffect (.bare fun _ => none) zeroMachine q s) ↔
      OwnBytes shortestFrame :=
  frame_settled_iff (.bare fun _ => none) zeroMachine shortestFrame ⟨_, _, shortestFrame_accepted⟩

end RtuA118
