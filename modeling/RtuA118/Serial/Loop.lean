import RtuA118.Serial.Electrical
import RtuA118.Serial.Actuator

/-!
# RtuA118.Serial.Loop

The **loops** of the two RS485 threads, one turn of each as a program:
`masterTurn` waits for a message unless a sampling run is due, lets the timers
choose, and hands over to `deal_master_485_packet`; `slaveTurn` receives a request
and answers it.
-/

namespace RtuA118

open Program Serial

/-- `if (v == *p_ctrl) *p_ctrl = MASTER_485_CTRL_DEFAULT`. -/
def release (v : Ctrl) : Serial Unit := do
  if (← getCtrl) = v then setCtrl .default else pure ()

/-- `deal_master_485_packet`. -/
def dealMaster485Packet (h : Host) (c : Nat) : Serial Int := do
  match ← switchCtrl with
  | .electricalSync => do
    let rc ← timeHandleFun c
    release .electricalSync
    pure rc
  | .electrical => do
    let rc ← dealWiredElectrical h c
    release .electrical
    pure rc
  | .actuator => do
    let rc ← dealWiredActuator h c
    release .actuator
    pure rc
  | .default => do
    setCtrl .default
    pure (-1)

/-- The master's own wait, which a due sampling run skips. -/
def masterWait : Serial Unit := do
  if (← getCtrl) ≠ .electricalSync then waitMsg (← getCtx) else pure ()

/-- One turn of `thread_modbus485_master`. -/
def masterTurn (h : Host) : Serial Unit := do
  masterWait
  chooseOperation
  let c ← getCtx
  let _ ← dealMaster485Packet h c

/-- One turn of `thread_modbus485_slave`. -/
def slaveTurn : Serial Unit := do
  let c ← getCtx
  match ← modbusReceiveMsg c .indication with
  | none => pure ()
  | some req => reply (← getCtx) req

/-- The turn of either thread. -/
def Role.turn (h : Host) : Role → Serial Unit
  | .master => masterTurn h
  | .slave => slaveTurn

/-! ### Starting -/

/-- The locals as they are initialised, with one context. What is not initialised
(`port_info`, `syn_along_info`) is whatever it is. -/
def Rs485.initial (config : PortSettings) (portInfo : Nat → UInt16) (synAlongInfo : SynInfo)
    (u : Rtu) : Rs485 where
  rtu := u
  contexts := fun c => if c = 0 then .fresh else ⟨false, 0, 0⟩
  allocated := 1
  ctx := 0
  port := config
  portInfo := portInfo
  ctrl := .default
  synAlongInfo := synAlongInfo
  electricalSampleTime := 0
  electricalSampleInterval := 0
  actuatorSampleTime := 0
  actuatorSampleInterval := 0
  sent := []
  serving := .default
  history := []

/-- `init_port_info` of the registers, over the configuration. -/
def Rs485.openPort (h : Host) (role : Role) (s : Rs485) : Rs485 :=
  { s.readPortInfo h role with port := initPortInfo (s.readPortInfo h role).portInfo s.port }

/-- A thread at the head of its loop. -/
def Rs485.start (h : Host) (role : Role) (config : PortSettings) (portInfo : Nat → UInt16)
    (synAlongInfo : SynInfo) (u : Rtu) : Rs485 :=
  let s := (Rs485.initial config portInfo synAlongInfo u).openPort h role
  match role with
  | .master => s.readIntervals h
  | .slave => s

/-- What matters of a thread that enters its loop. -/
structure Rs485.Starts (s : Rs485) : Prop where
  ctx : s.ctx < s.allocated
  context : s.contexts s.ctx = .fresh
  others : ∀ c, (s.contexts c).alive = true → c = s.ctx
  ctrl : s.ctrl = .default
  history : s.history = []

theorem Rs485.start_starts {h : Host} {role : Role} {config : PortSettings}
    {portInfo : Nat → UInt16} {synAlongInfo : SynInfo} {u : Rtu} :
    (Rs485.start h role config portInfo synAlongInfo u).Starts := by
  have hinit : (Rs485.initial config portInfo synAlongInfo u).Starts := by
    refine ⟨Nat.one_pos, rfl, fun c hc => ?_, rfl, rfl⟩
    by_contra h0
    rw [show (Rs485.initial config portInfo synAlongInfo u).contexts c = ⟨false, 0, 0⟩ from
      if_neg h0] at hc
    cases hc
  have hread : ∀ s : Rs485, s.Starts → (s.openPort h role).Starts := by
    intro s hs
    unfold Rs485.openPort Rs485.readPortInfo
    split <;> exact ⟨hs.ctx, hs.context, hs.others, hs.ctrl, hs.history⟩
  have hintervals : ∀ s : Rs485, s.Starts → (s.readIntervals h).Starts := fun s hs =>
    ⟨hs.ctx, hs.context, hs.others, hs.ctrl, hs.history⟩
  cases role with
  | master => exact hintervals _ (hread _ hinit)
  | slave => exact hread _ hinit

/-- The thread at the head of its loop. -/
def Starting (c : Config Act Act.Out Rs485) : Prop := c.state.Starts ∧ c.rest = .done ()

/-- A master that has just been started, on a unit none of whose cells was ever set. -/
def startedMaster : Rs485 :=
  .start (.bare (.bare fun _ => none)) .master tempSettings (fun _ => 0) ⟨0, 0, 0⟩
    (.start (emptyMap 38 (fun _ => 0) (fun _ => 0)))

theorem startedMaster_starts : startedMaster.Starts := Rs485.start_starts

theorem startedMaster_starting : Starting ⟨startedMaster, .done ()⟩ := ⟨startedMaster_starts, rfl⟩

end RtuA118
