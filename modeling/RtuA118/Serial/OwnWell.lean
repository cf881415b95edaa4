import RtuA118.Meter.OwnWell
import RtuA118.Serial.Divisions
import RtuA118.Serial.SampledRun

/-!
# RtuA118.Serial.OwnWell

Whose registers a packet changes, the runs it starts included.

A first diagram packet names its group to the thread that samples the electrical
meter. The wireless thread writes to that group's meter. The master drops the group:
its run stores into the well that cell `ELEC_WELL_NO_ADDR` of well 1 names. So a
packet stays in its own well unless it starts a run that stores, of a meter that
belongs to another well (`packet_ownWell_iff`).
-/

namespace RtuA118

open Program Serial Rs485

/-! ### Operations and the map -/

/-- The operations that write registers. -/
def Act.Stores : Act → Prop
  | .writeWords .. | .saveTime .. | .reply .. => True
  | _ => False

@[simp] theorem msgHandler_rtu {h : Host} {role : Role} {msg : Msg} {s : Rs485} :
    (s.msgHandler h role msg).rtu = s.rtu := by
  have hread : (s.readPortInfo h role).rtu = s.rtu := by
    unfold readPortInfo
    split <;> rfl
  cases msg with
  | configStart =>
      unfold Rs485.msgHandler
      dsimp only
      split
      · exact hread
      · exact hread
  | config2Start => cases role <;> rfl
  | requestHData well => cases role <;> rfl
  | loadElecSysn t n m g => cases role <;> rfl

@[simp] theorem take_rtu {h : Host} {role : Role} {i : Input} {s : Rs485} :
    (s.take h role i).rtu = s.rtu := by
  unfold Rs485.take
  split
  · exact msgHandler_rtu
  · rfl

/-- The other operations leave the map. -/
theorem exec_map {h : Host} {role : Role} {e : Act} {i : Input} {s s' : Rs485} {r : e.Out}
    (hk : ¬ e.Stores) (ha : Alone s e i) (he : exec h role e i s = some (r, s')) :
    s'.rtu.map = s.rtu.map := by
  obtain ⟨-, hp⟩ := exec_some he
  have harrive : (s.arrive i).rtu.map = s.rtu.map := ha s.rtu
  -- the three that store are excluded, and a message taken changes no register
  cases e with
  | writeWords w addr words => exact absurd trivial hk
  | saveTime w addr => exact absurd trivial hk
  | reply c req => exact absurd trivial hk
  | waitMsg c =>
      cases hp
      rw [take_rtu, harrive]
  | select c =>
      cases hp
      rw [take_rtu, harrive]
  | chooseOperation =>
      cases hp
      rcases chooseOperation_cases (s.arrive i) with hc | ⟨-, t, hc | hc⟩ <;> rw [hc] <;>
        exact harrive
  | send c request =>
      simp only [perform] at hp
      split at hp <;> cases hp <;> exact harrive
  | stampSample row slot =>
      simp only [perform] at hp
      split at hp <;> cases hp
      exact harrive
  | clearMac row =>
      simp only [perform] at hp
      split at hp <;> cases hp
      exact harrive
  | divide a b =>
      simp only [perform] at hp
      split at hp <;> cases hp
      exact harrive
  | _ =>
      cases hp
      exact harrive

/-! ### A run's stores -/

/-- What a sampling run writes goes into well `w`. -/
def Act.StoresInto (w : Nat) : Act → Prop
  | .writeWords w' addr words => w' = w ∧ addr = elecCycleCurrentAddr ∧ words.length = 500
  | .saveTime w' addr => w' = w ∧ addr = elecCycleTimeAddr
  | .reply .. => False
  | _ => True

theorem Act.Sampling.storesInto {c w : Nat} {e : Act} (he : e.Sampling c) : e.StoresInto w := by
  cases e <;> trivial

/-- The words as those of a range of indices. -/
theorem SynData.words_eq (d : SynData) :
    d.words = (List.range 500).map fun k : Nat => d (k : Int) := by
  unfold SynData.words
  simp only [List.bind_eq_flatMap, List.pure_def, ← List.map_eq_flatMap, List.map_map,
    Function.comp_def]

theorem SynData.words_length (d : SynData) : d.words.length = 500 := by
  rw [d.words_eq, List.length_map, List.length_range]

theorem storeSamples_into {w n m : UInt16} {data : SynData} :
    (storeSamples w n m data).Only (Act.StoresInto w.toNat) := by
  refine Prog.Only.bind (p := fillSamples n m data) ?_ fun d => ?_
  · unfold fillSamples
    split
    · exact Prog.Only.bind (Prog.only_op.2 trivial) fun _ => trivial
    · trivial
  · simp [Act.StoresInto, SynData.words_length]

theorem sampleRun_into {c : Nat} {w : UInt16} {synT0 : Timeval} :
    (sampleRun c w synT0).Only (Act.StoresInto w.toNat) := by
  refine Prog.Only.bind (p := samplePlan) (by simp [samplePlan, Act.StoresInto]) fun plan => ?_
  have hloop : ∀ synT1, (sampleLoop c plan.2.stepTm.toNat synT1 plan.2.n.toNat
      ⟨0, .filled, synT0⟩).Only (Act.StoresInto w.toNat) := fun _ =>
    (sampleLoop_sampling _ _).mono fun _ => Act.Sampling.storesInto
  simp only [Prog.op_bind, Prog.only_call]
  refine ⟨trivial, fun _ => ⟨trivial, fun _ => ⟨trivial, fun _ => (hloop _).bind fun o => ?_⟩⟩⟩
  cases o with
  | none => trivial
  | some p =>
      rw [Prog.only_ite]
      exact ⟨fun _ => trivial, fun _ => storeSamples_into⟩

section Confines

variable {h : Host} {α β : Type} {g : Nat} {m : MapT}

/-- Well `w` is the packet's, or none, or has no room for a run's samples. -/
def Harbours (g w : Nat) (m : MapT) : Prop :=
  1 ≤ w → w ≤ maxWellNum → elecCycleCurrentAddr + 500 ≤ m.xMax → w = g

theorem writeWords_harbours {env : Platform} {w addr : Nat} {words : List UInt16} {s : Rtu}
    (hram : m.MeterCellsRam) (hw : Harbours g w m) (hs : OnlyWell g m s.map)
    (hcells : ∀ i, addr ≤ i → i < addr + words.length → MeterCell i)
    (hend : elecCycleCurrentAddr + 500 ≤ addr + words.length) :
    OnlyWell g m (writeWords env w addr words s).map := by
  rcases writeWords_meterCells (hram.of_onlyWell hs) hcells with heq | ⟨h1, h8, hfit, heq⟩
  · rwa [heq]
  · rw [heq]
    obtain rfl := hw h1 h8 (by rw [← hs.xMax]; omega)
    exact hs.trans (.put h1 hfit)

/-- An operation of a run into such a well. -/
theorem exec_harbours {w : Nat} {e : Act} {i : Input} {s s' : Rs485} {r : e.Out}
    (hram : m.MeterCellsRam) (hw : Harbours g w m) (hs : OnlyWell g m s.rtu.map)
    (hk : e.StoresInto w) (ha : Alone s e i) (he : exec h .master e i s = some (r, s')) :
    OnlyWell g m s'.rtu.map := by
  by_cases hstores : e.Stores
  · obtain ⟨-, hp⟩ := exec_some he
    have harrive : OnlyWell g m (s.arrive i).rtu.map := by
      rw [show (s.arrive i).rtu.map = s.rtu.map from ha s.rtu]
      exact hs
    cases e with
    | writeWords w' addr words =>
        obtain ⟨rfl, rfl, hlen⟩ := hk
        cases hp
        exact writeWords_harbours hram hw harrive
          (fun i hlo hhi => .inr (.inl ⟨hlo, by omega⟩)) (by omega)
    | saveTime w' addr =>
        obtain ⟨rfl, rfl⟩ := hk
        cases hp
        exact writeWords_harbours hram hw harrive
          (fun i hlo hhi => .inr (.inr ⟨hlo, hhi⟩)) (by rw [timeWords_length]; simp)
    | reply c req => exact hk.elim
    | _ => exact hstores.elim
  · rwa [exec_map hstores ha he]

/-- From now on no register but those of well `g` comes to differ. -/
abbrev Confines (h : Host) (g : Nat) (m : MapT) : Serial α → Rs485 → Prop :=
  Ensures (exec h .master) Alone (fun s _ => OnlyWell g m s.rtu.map)
    fun _ s => OnlyWell g m s.rtu.map

theorem confines_op {post : β → Rs485 → Prop} {e : Act} {f : e.Out → Serial β} {s : Rs485}
    (hs : OnlyWell g m s.rtu.map) (hk : ¬ e.Stores)
    (hnext : ∀ i r s', Alone s e i → OnlyWell g m s'.rtu.map →
      perform h .master e i (s.arrive i) = some (r, s') →
      Ensures (exec h .master) Alone (fun s _ => OnlyWell g m s.rtu.map) post (f r) s') :
    Ensures (exec h .master) Alone (fun s _ => OnlyWell g m s.rtu.map) post (Prog.op e >>= f)
      s := by
  refine ensures_op_bind.2 ⟨hs, fun i r s' ha he => hnext i r s' ha ?_ (exec_some he).2⟩
  rwa [exec_map hk ha he]

/-- A run into such a well. -/
theorem confines_sampleRun {c : Nat} {w : UInt16} {synT0 : Timeval} {s : Rs485}
    (hram : m.MeterCellsRam) (hw : Harbours g w.toNat m) (hs : OnlyWell g m s.rtu.map) :
    Confines h g m (sampleRun c w synT0) s :=
  sampleRun_into.ensures (fun _ _ hs hk =>
    ⟨hs, fun _ _ _ ha he => exec_harbours hram hw hs hk ha he⟩) hs

/-- A run that divides by the number of points it is given, none. -/
theorem confines_pointless {c : Nat} {w : UInt16} {synT0 : Timeval} {s : Rs485}
    (hs : OnlyWell g m s.rtu.map) (hpoints : s.synAlongInfo.samplePoints = 0) :
    Confines h g m (sampleRun c w synT0) s := by
  refine ensures_bind.2 (confines_op hs nofun fun i n s' _ hs' hp => ?_)
  cases hp
  refine confines_op hs' nofun fun i' cycle s'' _ hs'' hp => ?_
  cases hp
  refine confines_op hs'' nofun fun i'' r s' _ hs' hp => ?_
  have hzero : ((s.arrive i).synAlongInfo.word 2) = 0 := hpoints
  rw [hzero] at hp
  cases hp

/-- The run of a request, where it stores into such a well or stores nothing. -/
theorem confines_timeHandleFun {c : Nat} {s : Rs485} (hram : m.MeterCellsRam)
    (hs : OnlyWell g m s.rtu.map) (hw : s.synAlongInfo.Accepted → ∀ r : Rtu, r.map = s.rtu.map →
      Harbours g (readWord h.env r h.stack 1 elecWellNoAddr).toNat m) :
    Confines h g m (timeHandleFun c) s := by
  refine confines_op hs nofun fun i w s1 ha h1 hp => ?_
  cases hp
  refine confines_op h1 nofun fun i2 _ s2 _ h2 hp => ?_
  cases hp
  refine confines_op h2 nofun fun i3 _ s3 _ h3 hp => ?_
  cases hp
  refine confines_op h3 nofun fun i4 _ s4 _ h4 hp => ?_
  cases hp
  refine confines_op h4 nofun fun i5 _ s5 _ h5 hp => ?_
  cases hp
  refine confines_op h5 nofun fun i6 cycle s6 _ h6 hp => ?_
  cases hp
  split
  · exact h6
  rename_i hlow
  refine confines_op h6 nofun fun i7 cycle s7 _ h7 hp => ?_
  cases hp
  split
  · exact h7
  rename_i hhigh
  by_cases hpoints : s.synAlongInfo.samplePoints = 0
  · exact confines_pointless h7 hpoints
  · refine confines_sampleRun hram ?_ h7
    exact hw ⟨UInt16.not_lt.1 hlow, UInt16.not_lt.1 hhigh, hpoints⟩ _ (ha s.rtu)

theorem confines_release {v : Ctrl} {s : Rs485} (hs : OnlyWell g m s.rtu.map) :
    Confines h g m (release v) s := by
  refine confines_op hs nofun fun i r s' _ hs' _ => ?_
  split
  · refine ⟨hs', fun i r s'' ha he => ?_⟩
    show OnlyWell g m s''.rtu.map
    rwa [exec_map (e := .setCtrl .default) nofun ha he]
  · exact hs'

/-- The turn that finds the request. -/
theorem confines_deal {c : Nat} {s : Rs485} (hram : m.MeterCellsRam)
    (hs : OnlyWell g m s.rtu.map) (hctrl : s.ctrl = .electricalSync)
    (hw : s.synAlongInfo.Accepted → ∀ r : Rtu, r.map = s.rtu.map →
      Harbours g (readWord h.env r h.stack 1 elecWellNoAddr).toNat m) :
    Confines h g m (dealMaster485Packet h c) s := by
  refine confines_op hs nofun fun i v s1 ha h1 hp => ?_
  have hv : v = .electricalSync ∧ s1 = (s.arrive i).beginServing := by
    cases hp
    exact ⟨hctrl, rfl⟩
  obtain ⟨rfl, rfl⟩ := hv
  have hmap : (s.arrive i).beginServing.rtu.map = s.rtu.map := ha s.rtu
  refine (confines_timeHandleFun hram h1 fun hacc r hr => hw hacc r (hr.trans hmap)).bind ?_
  exact fun rc t ht => (confines_release ht).bind fun _ _ ht => ht

end Confines

/-! ### The well number -/

section WellNo

variable {env : Platform} {cur : UInt16} {w addr : Nat} {s s' : Rtu}

/-- A word read depends on its own cell, unless it is the clock's. -/
theorem readWord_congr (hrest : s'.map = { s.map with ramX := s'.map.ramX })
    (hcell : addr < s.map.xMax →
      s'.map.ramX (s.map.xBase w + addr) = s.map.ramX (s.map.xBase w + addr))
    (hclock : mapGetTimeDay < addr) :
    readWord env s' cur w addr = readWord env s cur w addr := by
  have hx : s'.map.xMax = s.map.xMax := by rw [hrest]
  have hbase : s'.map.xBase w = s.map.xBase w := congrArg (· * (w - 1)) hx
  have htype : s'.map.ramXMapType = s.map.ramXMapType := by rw [hrest]
  have hflash1 : s'.map.flash1 = s.map.flash1 := by rw [hrest]
  have hflash2 : s'.map.flash2 = s.map.flash2 := by rw [hrest]
  have hargs : cellArgsOk s'.map 1 w addr = cellArgsOk s.map 1 w addr := by
    unfold cellArgsOk
    rw [hx]
  -- of the cells read by a function, only the clock's depend on more of the unit than its map
  have hfun : mapMapFunRead env s' cur w addr = mapMapFunRead env s cur w addr := by
    have hno : ¬ (mapGetTimeHour ≤ addr ∧ addr ≤ mapGetTimeDay) := by omega
    have hbase1 : s'.map.xBase 1 = s.map.xBase 1 := congrArg (· * (1 - 1)) hx
    unfold mapMapFunRead
    rw [if_neg hno, if_neg hno, hbase, hflash2, hbase1]
  have hread : addr < s.map.xMax → readCell env s' cur w addr = readCell env s cur w addr := by
    intro hlt
    unfold readCell
    rw [htype, hbase, hcell hlt, hflash1, hflash2, hfun]
  have hwords : zigbeeReadRegisters env s' (fun _ => cur) 1 w addr
      = zigbeeReadRegisters env s (fun _ => cur) 1 w addr := by
    unfold zigbeeReadRegisters
    rw [hargs]
    split
    · rename_i hok
      have hlt := (cellArgsOk_iff.1 hok).2.2.2.2
      simp [List.range_succ, hread (by omega)]
    · rfl
  unfold readWord
  rw [hwords]

end WellNo

/-! ### The packet's own well -/

/-- The parameters in a first diagram packet. -/
def diagramParams (p : Nat → UInt8) : SynInfo := ⟨swappedAt p 14, swappedAt p 22, swappedAt p 18⟩

/-- What the operation does that a message of unit `s` causes is confined to well `g`:
the wireless request, or the master's run, whatever the line delivers and the
operation's waits bring. -/
def Confined (h : Host) (reserve : Nat → UInt8) (g : Nat) (s : Rtu) : Queue × Msg → Prop
  | (.zigbee, .loadElecSysn t n m group) =>
    ∀ s', sendSysnElectricalParam h reserve ⟨t, n, m⟩ group s = some s' → OnlyWell g s.map s'.map
  | (.rtuClient, msg) =>
    ∀ x : Rs485, x.rtu.map = s.map → (x.contexts x.ctx).alive = true →
      Confines h g s.map (dealMaster485Packet h x.ctx) (x.msgHandler h .master msg)
  | _ => True

/-- A first diagram packet, from a well without a wireless electrical meter, that has the
wired one sampled for another well. -/
structure StrayRun (h : Host) (q : Nat → UInt8) (s : Rtu) : Prop where
  first : kindOf (packetOf q) = some .loadFirst
  wired : judgeElecParamWiredWireless (s.elecParamMeterMac ((originOf q).group.toNat - 1)) = false
  accepted : (diagramParams (packetOf q)).Accepted
  other : ¬ Harbours (originOf q).group.toNat (readWord h.env s h.stack 1 elecWellNoAddr).toNat
    s.map

section Own

variable {h : Host} {reserve : Nat → UInt8} {mc : Machine} {q : Nat → UInt8} {s : Rtu}

/-- Decoding leaves the cells below the meters'. -/
theorem analysis_below {env : Platform} {w i : Nat} (hram : s.map.MeterCellsRam) (hw : 1 ≤ w)
    (hw8 : w ≤ maxWellNum) (hi : i < 300) (hx : i < s.map.xMax) :
    (analysisZigbeeRcvData env mc q s).2.map.ramX (s.map.xBase w + i)
      = s.map.ramX (s.map.xBase w + i) := by
  by_cases hg : w = (originOf q).group.toNat
  · subst hg
    unfold analysisZigbeeRcvData
    split
    · rfl
    · refine runCalls_ramX (fun c hc => (packetCalls_from c hc).mono (by decide))
        fun c hc hcov => ?_
      have hfrom := packetCalls_from c hc
      cases c <;> simp [MeterCall.From, MeterCall.Covers] at hfrom hcov <;> omega
  · exact (analysis_onlyWell hram).cells w i hw hw8 hg hx

/-- The well number of the electrical meter is the same after decoding. -/
theorem analysis_wellNo {env : Platform} {cur : UInt16} (hram : s.map.MeterCellsRam) :
    readWord env (analysisZigbeeRcvData env mc q s).2 cur 1 elecWellNoAddr
      = readWord env s cur 1 elecWellNoAddr :=
  readWord_congr (analysis_onlyWell hram).rest
    (fun hx => analysis_below hram (by decide) (by decide) (by decide) hx) (by decide)

/-- The first word of a run's samples, in a well with room for them. -/
theorem storeSampled_first {env : Platform} {w : Nat} {d : SynData} (hram : s.map.MeterCellsRam)
    (hw : 1 ≤ w) (hw8 : w ≤ maxWellNum) (hroom : elecCycleCurrentAddr + 500 ≤ s.map.xMax) :
    (storeSampled env w d s).map.ramX (s.map.xBase w + elecCycleCurrentAddr) = d 0 := by
  obtain ⟨t, ht⟩ : ∃ t, t = writeWords env w elecCycleCurrentAddr d.words s := ⟨_, rfl⟩
  have htables : t.map.tables = s.map.tables := ht ▸ writeWords_tables (by decide)
  have hstored : t.map.ramX (s.map.xBase w + (elecCycleCurrentAddr + 0)) = d.words.getD 0 0 := by
    rw [ht]
    refine writeWords_ramX_of_mem (by decide) hw hw8 ?_ ?_ (fun j hj => absurd hj j.not_lt_zero)
      (.inr (hram w _ hw hw8 (by omega) (.inr (.inl ⟨by simp, by simp⟩))))
    · rwa [d.words_length]
    · rw [d.words_length]
      decide
  have hword : d.words.getD 0 0 = d 0 := by
    rw [d.words_eq]
    simp
  have hlater : (writeWords env w elecCycleTimeAddr (timeWords env t) t).map.ramX
      (s.map.xBase w + elecCycleCurrentAddr) = t.map.ramX (s.map.xBase w + elecCycleCurrentAddr) :=
    writeWords_ramX_of_not_mem (by decide) (by rw [xBase_eq_of_tables htables]; simp)
  unfold storeSampled
  dsimp only
  rw [← ht, hlater]
  exact hstored.trans hword

/-- The wireless request changes no register. -/
theorem confined_wireless {g : Nat} {t n m group : UInt16} :
    Confined h reserve g s (.zigbee, .loadElecSysn t n m group) := by
  intro s' hs'
  have hmap : s'.map = s.map := by
    unfold sendSysnElectricalParam at hs'
    dsimp only at hs'
    split_ifs at hs'
    · rw [← Option.some.inj hs']
    all_goals
      rw [← Option.some.inj hs']
      unfold zigbeeSendPacket
      split <;> rfl
  rw [hmap]
  exact .refl _ _

/-- The master's run is confined exactly if it stores into the packet's well, or not at
all. -/
theorem confined_wired_iff {g : Nat} {t n m group : UInt16} (hram : s.map.MeterCellsRam) :
    Confined h reserve g s (.rtuClient, .loadElecSysn t n m group) ↔
      (SynInfo.Accepted ⟨t, n, m⟩ →
        Harbours g (readWord h.env s h.stack 1 elecWellNoAddr).toNat s.map) := by
  have hsame : ∀ r : Rtu, r.map = s.map → readWord h.env r h.stack 1 elecWellNoAddr
      = readWord h.env s h.stack 1 elecWellNoAddr := fun r hr =>
    readWord_congr (by rw [hr]) (fun _ => by rw [hr]) (by decide)
  obtain ⟨w, hwdef⟩ : ∃ w, w = (readWord h.env s h.stack 1 elecWellNoAddr).toNat := ⟨_, rfl⟩
  rw [← hwdef]
  constructor
  · intro hconfined haccepted hw hw8 hroom
    by_contra hne
    have halive : (startedMaster.contexts startedMaster.ctx).alive = true := by
      rw [startedMaster_starts.context]
      rfl
    obtain ⟨x, hx⟩ : ∃ x : Rs485, x = { startedMaster with rtu := s } := ⟨_, rfl⟩
    have hrtu : x.rtu = s := by rw [hx]
    -- whatever the register holds, some reply makes it hold something else
    obtain ⟨v, hv⟩ : ∃ v : UInt8, ∀ y, FirstPoint (wordOfBytes v 0) y →
        y ≠ s.map.ramX (s.map.xBase w + elecCycleCurrentAddr) := by
      by_cases hold : s.map.ramX (s.map.xBase w + elecCycleCurrentAddr) = 0
      · exact ⟨100, fun y hy => hold ▸ hy.ne_zero⟩
      · exact ⟨0, fun y hy => hy.zero ▸ Ne.symm hold⟩
    have hrun := hconfined x (by rw [hrtu]) (by rw [hx]; exact halive)
    have hmay := comes_deal (h := h) (c := x.ctx) v
      (s := x.msgHandler h .master (.loadElecSysn t n m group)) (by rw [hx]; exact halive) rfl
      haccepted
    obtain ⟨_, x', honly, d, hd, hstored⟩ := hrun.meets hmay
    rw [msgHandler_rtu, hrtu, ← hwdef] at hstored
    have hcell := honly.cells w elecCycleCurrentAddr hw hw8 hne (by omega)
    rw [hstored, storeSampled_first hram hw hw8 hroom] at hcell
    exact hv _ hd hcell
  · intro hw x hx _
    refine confines_deal hram ?_ rfl fun hacc r hr => ?_
    · rw [msgHandler_rtu, hx]
      exact .refl _ _
    · rw [msgHandler_rtu, hx] at hr
      rw [hsame r hr, ← hwdef]
      exact hw hacc

/-- **A packet changes registers of its own well only**, the operations it causes
included, unless it starts a run that stores for another well. -/
theorem packet_ownWell_iff (h : Host) (reserve : Nat → UInt8) (mc : Machine) (q : Nat → UInt8)
    (s : Rtu) (hid : q 3 = zigbeeRcvDataFramid) (hram : s.map.MeterCellsRam) :
    (OnlyWell (originOf q).group.toNat s.map (analysisZigbeeRcvData h.env mc q s).2.map ∧
      ∀ r ∈ (analysisZigbeeRcvData h.env mc q s).2.posted.drop s.posted.length,
        Confined h reserve (originOf q).group.toNat (analysisZigbeeRcvData h.env mc q s).2 r) ↔
      ¬ StrayRun h q s := by
  have honly : OnlyWell (originOf q).group.toNat s.map (analysisZigbeeRcvData h.env mc q s).2.map :=
    analysis_onlyWell hram
  -- the cells that the run looks at are as before
  have hwired : ∀ {t n m group : UInt16},
      Confined h reserve (originOf q).group.toNat (analysisZigbeeRcvData h.env mc q s).2
        (.rtuClient, .loadElecSysn t n m group) ↔ (SynInfo.Accepted ⟨t, n, m⟩ →
          Harbours (originOf q).group.toNat (readWord h.env s h.stack 1 elecWellNoAddr).toNat
            s.map) := by
    intro t n m group
    rw [confined_wired_iff (hram.of_onlyWell honly), analysis_wellNo hram]
    unfold Harbours
    rw [honly.xMax]
  rw [analysis_posted hram hid, List.drop_left, and_iff_right honly]
  by_cases hk : kindOf (packetOf q) = some .loadFirst
  · rw [if_pos hk]
    simp only [List.mem_singleton, forall_eq, diagramRequest]
    cases hjudge :
      judgeElecParamWiredWireless (s.elecParamMeterMac ((originOf q).group.toNat - 1)) with
    | true =>
        refine iff_of_true confined_wireless fun hstray => ?_
        rw [hstray.wired] at hjudge
        exact absurd hjudge (by decide)
    | false =>
        refine hwired.trans ⟨fun hown hstray => hstray.other (hown hstray.accepted), ?_⟩
        intro hno haccepted
        by_contra hother
        exact hno ⟨hk, hjudge, haccepted, hother⟩
  · rw [if_neg hk]
    exact iff_of_true (fun r hr => absurd hr List.not_mem_nil) fun hstray => hk hstray.first

end Own

/-- A unit whose electrical meter belongs to well 2. -/
def otherWellUnit : Rtu :=
  .start { emptyMap 2000 (fun _ => 0) (fun _ => 0) with
    ramXMapType := fun _ => .ram
    ramX := fun i => if i = elecWellNoAddr then 2 else 0 }

theorem otherWellUnit_ram : otherWellUnit.map.MeterCellsRam := fun _ _ _ _ _ _ => rfl

theorem otherWellUnit_packet : (OnlyWell 1 otherWellUnit.map (analysisZigbeeRcvData
      (.bare fun _ => none) zeroMachine (diagramFrame 200) otherWellUnit).2.map ∧
    ∀ r ∈ (analysisZigbeeRcvData (.bare fun _ => none) zeroMachine (diagramFrame 200)
        otherWellUnit).2.posted.drop otherWellUnit.posted.length,
      Confined (.bare (.bare fun _ => none)) (fun _ => 0) 1 (analysisZigbeeRcvData
        (.bare fun _ => none) zeroMachine (diagramFrame 200) otherWellUnit).2 r) ↔
    ¬ StrayRun (.bare (.bare fun _ => none)) (diagramFrame 200) otherWellUnit :=
  packet_ownWell_iff (.bare (.bare fun _ => none)) (fun _ => 0) zeroMachine (diagramFrame 200)
    otherWellUnit rfl otherWellUnit_ram

/-- A diagram of well 1 has the current of well 2 replaced. -/
theorem not_packet_ownWell : ¬ ∀ (h : Host) (reserve : Nat → UInt8) (mc : Machine)
    (q : Nat → UInt8) (s : Rtu), q 3 = zigbeeRcvDataFramid → s.map.MeterCellsRam →
    OnlyWell (originOf q).group.toNat s.map (analysisZigbeeRcvData h.env mc q s).2.map ∧
      ∀ r ∈ (analysisZigbeeRcvData h.env mc q s).2.posted.drop s.posted.length,
        Confined h reserve (originOf q).group.toNat (analysisZigbeeRcvData h.env mc q s).2 r := by
  intro hall
  let h := Host.bare (.bare fun _ => none)
  obtain ⟨honly, hposted⟩ :=
    hall h (fun _ => 0) zeroMachine (diagramFrame 200) otherWellUnit rfl otherWellUnit_ram
  have hr : (.rtuClient, .loadElecSysn 0 1000 200 1) ∈ (analysisZigbeeRcvData h.env zeroMachine
      (diagramFrame 200) otherWellUnit).2.posted.drop otherWellUnit.posted.length := by
    rw [analysis_posted otherWellUnit_ram rfl, List.drop_left, if_pos (diagramFrame_kind 200)]
    exact List.mem_singleton.2 rfl
  have hconfined := (confined_wired_iff (otherWellUnit_ram.of_onlyWell honly)).1 (hposted _ hr)
  have hwell : readWord h.env otherWellUnit h.stack 1 elecWellNoAddr = 2 := by decide +kernel
  have hown := hconfined (by decide)
  rw [analysis_wellNo otherWellUnit_ram, hwell] at hown
  refine absurd (hown (by decide) (by decide) ?_) (by decide)
  rw [honly.xMax]
  decide

end RtuA118
