import RtuA118.Meter.Delivery
import RtuA118.Serial.Frame

/-!
# RtuA118.Serial.Divisions

The **divisions** a load diagram's first packet leads to.

Its three fields go as one message to one of two threads. The wireless thread
builds a request at once, `send_sysn_electrical_param`, and divides by the number
of points less one; the master's run divides by the number of points, and by the
points it is short of. Neither looks at the number of points before, so the packet
is harmless just when that number is not 1, respectively not 0 with a cycle time
that the run accepts (`diagram_divides_iff`).
-/

namespace RtuA118

open Program Serial

/-! ### The wireless request -/

@[simp] def dataTypeRtuEquWlElectricityDiagramData : UInt16 := 0x0210

/-- `send_sysn_electrical_param`, `reserve` being the ten bytes it leaves unwritten;
`none` where it divides by zero. -/
def sendSysnElectricalParam (h : Host) (reserve : Nat → UInt8) (syn : SynInfo) (group : UInt16)
    (s : Rtu) : Option Rtu :=
  if group ≥ 9 ∨ group < 1 then some s
  else
    let mode := readWord h.env s h.stack group.toNat loadSampleModeAddr
    let syncTime := if syn.synchronTime > 12 then syn.synchronTime - 12 else syn.synchronTime
    let divisor : Int := syn.samplePoints.toNat - 1
    if divisor = 0 then none
    else
      let interval := UInt16.ofInt ((syn.cycleTime.toNat * 10 : Int).tdiv divisor)
      some (zigbeeSendPacket (s.elecParamMeterMac (group.toNat - 1))
        (packetA11RtuHeader (UInt8.ofNat group.toNat) 1 dataTypeRtuEquWlElectricityDiagramData ++
          [hiByte mode] ++ swappedBytes syn.samplePoints ++ swappedBytes syncTime ++
          swappedBytes interval ++ [0] ++ (List.range 10).map reserve) s)

/-- The wireless request divides by zero for one number of points only. -/
theorem sendSysnElectricalParam_ne_none {h : Host} {reserve : Nat → UInt8} {syn : SynInfo}
    {group : UInt16} {s : Rtu} (hlow : 1 ≤ group) (hhigh : group < 9) :
    sendSysnElectricalParam h reserve syn group s ≠ none ↔ syn.samplePoints ≠ 1 := by
  have hg : ¬ (group ≥ 9 ∨ group < 1) := by
    rintro (hg | hg)
    · exact UInt16.not_lt.2 hg hhigh
    · exact UInt16.not_lt.2 hlow hg
  have hd : (syn.samplePoints.toNat : Int) - 1 = 0 ↔ syn.samplePoints = 1 := by
    rw [UInt16.toNat_inj.symm]
    show _ ↔ syn.samplePoints.toNat = 1
    omega
  unfold sendSysnElectricalParam
  rw [if_neg hg]
  dsimp only
  by_cases hp : syn.samplePoints = 1
  · rw [if_pos (hd.2 hp)]
    simp [hp]
  · rw [if_neg (mt hd.1 hp)]
    simp [hp]

/-! ### The master's run -/

/-- No division by zero comes next. -/
def NonzeroDivisor (_ : Rs485) (e : Act) : Prop := ∀ a b, e = .divide a b → b ≠ 0

/-- The parameters do not make a run divide by zero. -/
def SynInfo.Divisible (p : SynInfo) : Prop :=
  ¬ (1000 ≤ p.cycleTime ∧ p.cycleTime ≤ 10000 ∧ p.samplePoints = 0)

instance (p : SynInfo) : Decidable p.Divisible := inferInstanceAs (Decidable (¬ _))

open Rs485

section Run

variable {h : Host} {α : Type} {c : Nat} {s : Rs485}

/-- No division by zero from now on, whatever the inputs are. -/
abbrev DividesSafely (h : Host) (post : α → Rs485 → Prop) : Serial α → Rs485 → Prop :=
  Ensures (exec h .master) (fun _ _ _ => True) NonzeroDivisor post

/-- A program without divisions. -/
theorem dividesSafely_only {p : Serial α} (hp : p.Only fun e => ∀ a b, e ≠ .divide a b) :
    DividesSafely h (fun _ _ => True) p s :=
  hp.ensures (fun _ _ _ hk => ⟨fun a b he => absurd he (hk a b), fun _ _ _ _ _ => trivial⟩) trivial

theorem Act.Sampling.ne_divide {e : Act} (he : e.Sampling c) : ∀ a b, e ≠ .divide a b := by
  rintro a b rfl
  exact he

/-- The missing points are inserted only where there are some. -/
theorem dividesSafely_fillSamples {n m : UInt16} {data : SynData} :
    DividesSafely h (fun _ _ => True) (fillSamples n m data) s := by
  unfold fillSamples
  split
  · rename_i hlt
    have hlt : n.toNat < m.toNat := UInt16.lt_iff_toNat_lt.1 hlt
    refine ensures_op_bind.2 ⟨?_, fun _ _ _ _ _ => trivial⟩
    rintro _ _ ⟨⟩
    omega
  · trivial

theorem dividesSafely_storeSamples {w n m : UInt16} {data : SynData} :
    DividesSafely h (fun _ _ => True) (storeSamples w n m data) s := by
  refine dividesSafely_fillSamples.bind fun data s _ => dividesSafely_only ?_
  simp

/-- The number of points is the divisor of the plan. -/
theorem dividesSafely_samplePlan (hs : s.synAlongInfo.samplePoints ≠ 0) :
    DividesSafely h (fun _ _ => True) samplePlan s := by
  refine ensures_op_bind.2 ⟨nofun, fun i n s' _ he => ?_⟩
  have hn : n = s.synAlongInfo.samplePoints := by
    cases (exec_some he).2
    rfl
  refine ensures_op_bind.2 ⟨nofun, fun i cycle s' _ he => ?_⟩
  refine ensures_op_bind.2 ⟨?_, fun i stepTm s' _ he => ?_⟩
  · rintro _ _ ⟨⟩
    rw [← hn] at hs
    have hpos : n.toNat ≠ 0 := fun h0 => hs (UInt16.toNat_inj.1 h0)
    split
    · decide
    · exact Int.natCast_ne_zero.2 hpos
  · refine dividesSafely_only ?_
    simp

theorem dividesSafely_sampleRun {w : UInt16} {synT0 : Timeval}
    (hs : s.synAlongInfo.samplePoints ≠ 0) :
    DividesSafely h (fun _ _ => True) (sampleRun c w synT0) s := by
  refine (dividesSafely_samplePlan hs).bind fun plan s _ => ?_
  refine ensures_op_bind.2 ⟨nofun, fun _ _ s _ _ => ?_⟩
  refine ensures_op_bind.2 ⟨nofun, fun _ cycle s _ _ => ?_⟩
  refine ensures_op_bind.2 ⟨nofun, fun _ _ s _ _ => ?_⟩
  have hloop : ∀ synT1, (sampleLoop c plan.2.stepTm.toNat synT1 plan.2.n.toNat
      ⟨0, .filled, synT0⟩).Only fun e => ∀ a b, e ≠ .divide a b := fun _ =>
    (sampleLoop_sampling _ _).mono fun _ => Act.Sampling.ne_divide
  refine (dividesSafely_only (hloop _)).bind fun o s _ => ?_
  cases o with
  | none => trivial
  | some st =>
      dsimp only
      split_ifs
      · trivial
      · exact dividesSafely_storeSamples
      · trivial
      · exact dividesSafely_storeSamples

/-- The two tests of the cycle time. -/
theorem dividesSafely_tested {p : Serial Int}
    (hp : 1000 ≤ s.synAlongInfo.cycleTime → s.synAlongInfo.cycleTime ≤ 10000 →
      ∀ t : Rs485, t.synAlongInfo = s.synAlongInfo → DividesSafely h (fun _ _ => True) p t) :
    DividesSafely h (fun _ _ => True) (do
      if (← syn 1) < 1000 then pure (-1)
      else if (← syn 1) > 10000 then pure (-1)
      else p) s := by
  refine ensures_op_bind.2 ⟨nofun, fun i r s' _ he => ?_⟩
  cases (exec_some he).2
  split
  · trivial
  · rename_i hlow
    refine ensures_op_bind.2 ⟨nofun, fun i r s' _ he => ?_⟩
    cases (exec_some he).2
    split
    · trivial
    · rename_i hhigh
      exact hp (UInt16.not_lt.1 hlow) (UInt16.not_lt.1 hhigh) _ rfl

/-- **A run whose parameters are right divides by no zero.** -/
theorem dividesSafely_timeHandleFun (hs : s.synAlongInfo.Divisible) :
    DividesSafely h (fun _ _ => True) (timeHandleFun c) s := by
  refine ensures_op_bind.2 ⟨nofun, fun i w s' _ he => ?_⟩
  cases (exec_some he).2
  refine ensures_op_bind.2 ⟨nofun, fun i _ s' _ he => ?_⟩
  cases (exec_some he).2
  refine ensures_op_bind.2 ⟨nofun, fun i _ s' _ he => ?_⟩
  cases (exec_some he).2
  refine ensures_op_bind.2 ⟨nofun, fun i _ s' _ he => ?_⟩
  cases (exec_some he).2
  refine ensures_op_bind.2 ⟨nofun, fun i _ s' _ he => ?_⟩
  cases (exec_some he).2
  refine dividesSafely_tested fun hlow hhigh t ht => dividesSafely_sampleRun ?_
  rw [ht]
  exact fun h0 => hs ⟨hlow, hhigh, h0⟩

/-- A run of no points, in a cycle time that is accepted. -/
theorem not_dividesSafely_timeHandleFun {post : Int → Rs485 → Prop}
    (halive : (s.contexts c).alive = true) (hs : ¬ s.synAlongInfo.Divisible) :
    ¬ DividesSafely h post (timeHandleFun c) s := by
  intro hE
  obtain ⟨hlow, hhigh, hpoints⟩ := not_not.1 hs
  let i : Input := ⟨id, false, none, [], ⟨0, 0⟩⟩
  have hgo : ∀ (e : Act) (t t' : Rs485) (r : e.Out), t.Follows e →
      perform h .master e i (t.arrive i) = some (r, t') →
      exec h .master e i t = some (r, t') := fun e t t' r hf hp => (exec_eq hf).trans hp
  let w := readWord h.env s.rtu h.stack 1 elecWellNoAddr
  let t := s.onContext c (.setSlave w.toNat)
  have hfollows : s.Follows (.setSlave c w.toNat) := by
    rintro _ ⟨⟩
    exact halive
  have hE := (ensures_op_bind.1 hE).2 i w s trivial (hgo _ _ _ _ nofun rfl)
  have hE := (ensures_op_bind.1 hE).2 i () t trivial (hgo _ _ _ _ hfollows rfl)
  have hE := (ensures_op_bind.1 hE).2 i ⟨0, 0⟩ t trivial (hgo _ _ _ _ nofun rfl)
  let cycle := s.synAlongInfo.cycleTime
  have hE := (ensures_op_bind.1 hE).2 i cycle t trivial (hgo _ _ _ _ nofun rfl)
  have hE := (ensures_op_bind.1 hE).2 i s.synAlongInfo.synchronTime t trivial
    (hgo _ _ _ _ nofun rfl)
  have hE := (ensures_op_bind.1 hE).2 i cycle t trivial (hgo _ _ _ _ nofun rfl)
  rw [if_neg (UInt16.not_lt.2 hlow)] at hE
  have hE := (ensures_op_bind.1 hE).2 i cycle t trivial (hgo _ _ _ _ nofun rfl)
  rw [if_neg (UInt16.not_lt.2 hhigh)] at hE
  -- the plan divides by the number of points it finds
  have hE := (ensures_op_bind.1 (ensures_bind.1 hE)).2 i s.synAlongInfo.samplePoints t trivial
    (hgo _ _ _ _ nofun rfl)
  have hE := (ensures_op_bind.1 hE).2 i cycle t trivial (hgo _ _ _ _ nofun rfl)
  rw [hpoints] at hE
  exact (ensures_op_bind.1 hE).1 _ _ rfl rfl

/-- What a request does to the turn that finds it. -/
theorem dividesSafely_deal_iff {q : SynInfo} (halive : (s.contexts c).alive = true)
    (hctrl : s.ctrl = .electricalSync) (hq : s.synAlongInfo = q) :
    DividesSafely h (fun _ _ => True) (dealMaster485Packet h c) s ↔ q.Divisible := by
  let i : Input := ⟨id, false, none, [], ⟨0, 0⟩⟩
  constructor
  · intro hE
    by_contra hdiv
    have hgo : exec h .master .switchCtrl i s = some (.electricalSync, s.beginServing) := by
      rw [← hctrl]
      exact exec_eq nofun
    have hE := ensures_bind.1 ((ensures_op_bind.1 hE).2 i _ _ trivial hgo)
    refine not_dividesSafely_timeHandleFun (s := s.beginServing) halive ?_ hE
    rwa [show s.beginServing.synAlongInfo = q from hq]
  · intro hdiv
    refine ensures_op_bind.2 ⟨nofun, fun i r s' _ he => ?_⟩
    cases (exec_some he).2
    rw [show (s.arrive i).ctrl = .electricalSync from hctrl]
    refine (dividesSafely_timeHandleFun ?_).bind fun rc s _ => dividesSafely_only ?_
    · rwa [show (s.arrive i).beginServing.synAlongInfo = q from hq]
    · refine Prog.Only.bind (p := release .electricalSync) ?_ fun _ => trivial
      simp [release]

end Run

/-! ### The message of a first diagram packet -/

/-- The requests for a synchronised sampling that a unit has posted. -/
def Rtu.requests (s : Rtu) : List (Queue × Msg) :=
  s.posted.filter fun x => match x.2 with
    | .loadElecSysn .. => true
    | _ => false

@[simp] theorem Rtu.requests_post {s : Rtu} {q : Queue} {t n m g : UInt16} :
    (s.post q (.loadElecSysn t n m g)).requests = s.requests ++ [(q, .loadElecSysn t n m g)] := by
  simp [Rtu.requests, Rtu.post]

section Requests

variable {env : Platform} {w i : Nat} {v : UInt16} {s : Rtu}

/-- Above the clock's cells a cell's write posts no request. -/
theorem mapMapFunWrite_requests {v' : UInt16} {s' : Rtu}
    (h : mapMapFunWrite env v w i s = some (v', s')) (hi : 10 ≤ i) : s'.requests = s.requests := by
  have h0 : i ≠ mapChangeWellType := by
    unfold mapChangeWellType
    omega
  obtain ⟨htime, -, -⟩ | ⟨-, -, rfl⟩ | ⟨-, -, rfl⟩ | ⟨-, -, rfl⟩ | ⟨-, -, rfl⟩ :=
    mapMapFunWrite_cases h h0
  · unfold mapGetTimeDay at htime
    omega
  · unfold rtuResetFlash1
    split
    · simp [Rtu.requests, Rtu.post]
    · rfl
  · simp [Rtu.requests, Rtu.post, storeFun, Rtu.onMap, Rtu.msync]
  · unfold storeFun gpioSetDo
    split <;> rfl
  · simp [Rtu.requests, Rtu.post, Rtu.onMap]

theorem writeCell_requests (hi : 10 ≤ i) : (writeCell env w i v s).2.requests = s.requests := by
  cases ht : s.map.ramXMapType (s.map.xBase w + i) with
  | sys =>
      simp only [writeCell, ht]
      split
      · rename_i v' s' hf
        have hrequests := mapMapFunWrite_requests hf hi
        exact hrequests
      · rfl
  | flash1 =>
      rw [writeCell_flash1 ht]
      rfl
  | flash2 =>
      rw [writeCell_flash2 ht]
      rfl
  | _ => simp [writeCell, ht, Rtu.requests, Rtu.onMap]

theorem writeWords_requests {addr : Nat} {words : List UInt16} (ha : 10 ≤ addr) :
    (writeWords env w addr words s).requests = s.requests := by
  rw [writeWords_eq]
  split
  · exact writeCells_induction (motive := fun t => t.requests = s.requests) 10
      (fun _ _ _ hi ht => (writeCell_requests hi).trans ht) ha rfl
  · rfl

theorem zigbeeSendPacket_requests {mac : Nat → UInt8} {data : List UInt8} :
    (zigbeeSendPacket mac data s).requests = s.requests := by
  unfold zigbeeSendPacket
  split <;> rfl

/-- A first diagram packet posts one request, to the thread its group's meter is read by. -/
theorem analysis_requests {mc : Machine} {q : Nat → UInt8} (hid : q 3 = zigbeeRcvDataFramid)
    (hk : kindOf (packetOf q) = some .loadFirst) :
    (analysisZigbeeRcvData env mc q s).2.requests = s.requests ++
      [(if judgeElecParamWiredWireless (s.elecParamMeterMac ((originOf q).group.toNat - 1)) then
          .zigbee else .rtuClient,
        .loadElecSysn (swappedAt (packetOf q) 14) (swappedAt (packetOf q) 22)
          (swappedAt (packetOf q) 18) (UInt16.ofNat (originOf q).group.toNat))] := by
  rw [analysis_eq env mc s hid, packetCalls_of_kind hk]
  simp [PacketKind.calls, runCalls, MeterCall.run, zigbeeSendPacket_requests, writeWords_requests]

end Requests

/-! ### Harmless requests -/

/-- The thread that takes the request divides by no zero because of it, whatever state
it is in and whatever its inputs are. -/
def Harmless (h : Host) (reserve : Nat → UInt8) : Queue × Msg → Prop
  | (.zigbee, .loadElecSysn t n m g) =>
    ∀ s : Rtu, sendSysnElectricalParam h reserve ⟨t, n, m⟩ g s ≠ none
  | (.rtuClient, msg) =>
    ∀ s : Rs485, (s.contexts s.ctx).alive = true →
      DividesSafely h (fun _ _ => True) (dealMaster485Packet h s.ctx) (s.msgHandler h .master msg)
  | _ => True

section Harmless

variable {h : Host} {reserve : Nat → UInt8} {t n m g : UInt16}

theorem harmless_zigbee_iff (hlow : 1 ≤ g) (hhigh : g < 9) :
    Harmless h reserve (.zigbee, .loadElecSysn t n m g) ↔ m ≠ 1 :=
  ⟨fun hs => (sendSysnElectricalParam_ne_none hlow hhigh).1 (hs startedMaster.rtu),
    fun hm _ => (sendSysnElectricalParam_ne_none hlow hhigh).2 hm⟩

/-- The turn after a request. -/
theorem dividesSafely_request_iff {s : Rs485} (halive : (s.contexts s.ctx).alive = true) :
    DividesSafely h (fun _ _ => True) (dealMaster485Packet h s.ctx)
      (s.msgHandler h .master (.loadElecSysn t n m g)) ↔ SynInfo.Divisible ⟨t, n, m⟩ :=
  dividesSafely_deal_iff (q := ⟨t, n, m⟩) halive rfl rfl

theorem harmless_rtuClient_iff :
    Harmless h reserve (.rtuClient, .loadElecSysn t n m g) ↔ SynInfo.Divisible ⟨t, n, m⟩ := by
  refine ⟨fun hs => ?_, fun hdiv s halive => (dividesSafely_request_iff halive).2 hdiv⟩
  have halive : (startedMaster.contexts startedMaster.ctx).alive = true := by
    rw [startedMaster_starts.context]
    rfl
  exact (dividesSafely_request_iff halive).1 (hs startedMaster halive)

/-- **A first diagram packet is harmless** just when the number of points it gives is
not 1, where the electrical meter is a wireless one, and where it is wired just when
that number is not 0 or the cycle time is one that a run refuses. -/
theorem diagram_divides_iff (h : Host) (reserve : Nat → UInt8) (mc : Machine) {q : Nat → UInt8}
    (s : Rtu) (hid : q 3 = zigbeeRcvDataFramid) (hk : kindOf (packetOf q) = some .loadFirst) :
    (∀ r ∈ (analysisZigbeeRcvData h.env mc q s).2.requests.drop s.requests.length,
        Harmless h reserve r) ↔
      if judgeElecParamWiredWireless (s.elecParamMeterMac ((originOf q).group.toNat - 1)) then
        swappedAt (packetOf q) 18 ≠ 1
      else
        ¬ (1000 ≤ swappedAt (packetOf q) 22 ∧ swappedAt (packetOf q) 22 ≤ 10000 ∧
          swappedAt (packetOf q) 18 = 0) := by
  have hgroup : 0 < (originOf q).group.toNat ∧ (originOf q).group.toNat < 9 := (kindOf_tested hk).1
  rw [analysis_requests hid hk, List.drop_left]
  simp only [List.mem_singleton, forall_eq]
  split
  · have hg : (UInt16.ofNat (originOf q).group.toNat).toNat = (originOf q).group.toNat :=
      UInt16.toNat_ofNat_of_lt (Nat.lt_trans hgroup.2 (by decide))
    refine harmless_zigbee_iff ?_ ?_
    · rw [UInt16.le_iff_toNat_le, hg]
      exact hgroup.1
    · rw [UInt16.lt_iff_toNat_lt, hg]
      exact hgroup.2
  · exact harmless_rtuClient_iff

end Harmless

/-- The first packet of a diagram of so many points, in a cycle of 10 s, from a load meter
of group 1. -/
def diagramFrame (points : UInt8) : Nat → UInt8
  | 3 => 0x91
  | 26 | 27 | 28 => 1
  | 30 => 0x20
  | 40 => points
  | 43 => 0x03
  | 44 => 0xE8
  | _ => 0

theorem diagramFrame_kind (points : UInt8) :
    kindOf (packetOf (diagramFrame points)) = some .loadFirst := rfl

/-- A unit that knows no wireless electrical meter. -/
def wiredUnit : Rtu := .start (emptyMap 38 (fun _ => 0) (fun _ => 0))

theorem diagramFrame_harmless_iff : (∀ r ∈ (analysisZigbeeRcvData (.bare fun _ => none) zeroMachine
    (diagramFrame 200) wiredUnit).2.requests.drop wiredUnit.requests.length,
    Harmless (.bare (.bare fun _ => none)) (fun _ => 0) r) ↔
      if judgeElecParamWiredWireless (wiredUnit.elecParamMeterMac 0) then (200 : UInt16) ≠ 1
      else ¬ ((1000 : UInt16) ≤ 1000 ∧ (1000 : UInt16) ≤ 10000 ∧ (200 : UInt16) = 0) :=
  diagram_divides_iff (.bare (.bare fun _ => none)) (fun _ => 0) zeroMachine wiredUnit rfl
    (diagramFrame_kind 200)

/-- A diagram of no points makes the run divide by their number. -/
theorem pointless_diagram : ¬ ∀ (h : Host) (reserve : Nat → UInt8) (mc : Machine) (q : Nat → UInt8)
    (s : Rtu), q 3 = zigbeeRcvDataFramid → kindOf (packetOf q) = some .loadFirst →
    ∀ r ∈ (analysisZigbeeRcvData h.env mc q s).2.requests.drop s.requests.length,
      Harmless h reserve r := by
  intro hall
  let h := Host.bare (.bare fun _ => none)
  have hr : (.rtuClient, .loadElecSysn 0 1000 0 1) ∈ (analysisZigbeeRcvData h.env zeroMachine
      (diagramFrame 0) wiredUnit).2.requests.drop wiredUnit.requests.length := by
    rw [analysis_requests rfl (diagramFrame_kind 0), List.drop_left]
    exact List.mem_singleton.2 rfl
  have hharmless := hall h (fun _ => 0) zeroMachine (diagramFrame 0) wiredUnit rfl
    (diagramFrame_kind 0) _ hr
  exact absurd (harmless_rtuClient_iff.1 hharmless) (by decide)

end RtuA118
