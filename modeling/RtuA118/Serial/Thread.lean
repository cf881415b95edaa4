import RtuA118.Lib.Program
import RtuA118.Meter.Packet
import RtuA118.Modbus.Reply

/-!
# RtuA118.Serial.Thread

The **state of an RS485 thread** and the operations its code is made of.

`thread_modbus485_master` and `thread_modbus485_slave` keep their locals where
their message handler, a nested function, reaches them; so the handler changes
them wherever `select` lets it run: in the master's own wait, and below every
receive (`_modbus_rtu_select`). A **context** is an identifier; `modbus_free`
leaves its identifier behind, dead. An operation that follows a dead context, or
divides by zero, or stores outside an array, has no behaviour: `Rs485.exec`
answers nothing.

An operation is atomic. What the other threads do to the unit between two
operations, what the line delivers and when a wait ends are its **input**.
-/

namespace RtuA118

open Program

/-! ### Ports and contexts -/

/-- `rate`, `data_flag`, `stop_flag`, `ver_flag`. -/
structure PortSettings where
  rate : Int
  dataFlag : Int
  stopFlag : Int
  verFlag : Char
  deriving DecidableEq, Repr

/-- `init_port_info`: a code it does not know leaves the setting as it was. -/
def initPortInfo (info : Nat → UInt16) (p : PortSettings) : PortSettings where
  rate :=
    match (info 0).toNat with
    | 0 => 1200
    | 1 => 2400
    | 2 => 4800
    | 3 => 9600
    | 4 => 19200
    | 5 => 38400
    | 6 => 57600
    | _ => p.rate
  dataFlag :=
    match (info 1).toNat with
    | 0 => 7
    | 1 => 8
    | _ => p.dataFlag
  stopFlag :=
    match (info 2).toNat with
    | 0 => 1
    | 1 => 2
    | _ => p.stopFlag
  verFlag :=
    match (info 3).toNat with
    | 0 => 'N'
    | 1 => 'E'
    | 2 => 'O'
    | _ => p.verFlag

/-- `temp_rate` to `temp_ver_flag` as the handler initialises them. -/
def tempSettings : PortSettings := ⟨9600, 8, 1, 'N'⟩

/-- A `modbus_t`: whether it is allocated, its `slave`, and the address last asked
for with `modbus_set_slave` or by assignment. -/
structure Context where
  alive : Bool
  slave : Int
  asked : Int
  deriving DecidableEq, Repr

/-- `_modbus_set_slave`. -/
def Context.setSlave (v : Int) (x : Context) : Context :=
  { x with asked := v, slave := if v ≥ 0 ∧ v ≤ 247 then v else x.slave }

/-- A context after `modbus_new_rtu` and `modbus_set_slave(ctx, 1)`. -/
def Context.fresh : Context := ⟨true, 1, 1⟩

/-! ### The locals -/

/-- `MASTER_485_CTRL_…`, the values of `master_485_ctrl`. -/
inductive Ctrl where
  | default
  | electrical
  | actuator
  | electricalSync
  deriving DecidableEq, Repr

/-- `syn_along_info`. -/
structure SynInfo where
  synchronTime : UInt16
  cycleTime : UInt16
  samplePoints : UInt16
  deriving DecidableEq, Repr

/-- `syn_along_info[i]`. -/
def SynInfo.word (p : SynInfo) : Fin 3 → UInt16
  | 0 => p.synchronTime
  | 1 => p.cycleTime
  | 2 => p.samplePoints

/-- What has become of the requests for a synchronised sampling: one was received,
or a run was started with the parameters there are. -/
inductive SynEvent where
  | requested (p : SynInfo)
  | started (p : SynInfo)
  deriving DecidableEq, Repr

/-- `struct timeval`, in the 32-bit numbers of the target. -/
structure Timeval where
  sec : BitVec 32
  usec : BitVec 32
  deriving DecidableEq, Repr

namespace Timeval

/-- `tv_sec * 1000 + tv_usec / 1000`. -/
def millis (t : Timeval) : BitVec 32 := t.sec * 1000 + t.usec.sdiv 1000

/-- `t > u`, as the code compares them. -/
def later (t u : Timeval) : Bool := u.millis.slt t.millis

/-- `tv_sec += s; tv_usec += u`. -/
def plus (t : Timeval) (s u : Nat) : Timeval :=
  ⟨t.sec + BitVec.ofNat 32 s, t.usec + BitVec.ofNat 32 u⟩

@[simp] theorem later_self (t : Timeval) : t.later t = false := by
  simp [later, BitVec.slt]

end Timeval

/-- An RS485 thread: the unit, the contexts and the locals that its handler sees;
and, for reasoning alone, the operation in progress and the history of the sampling
requests. The slave uses the first group of locals only. -/
structure Rs485 where
  rtu : Rtu
  contexts : Nat → Context
  allocated : Nat
  ctx : Nat
  port : PortSettings
  portInfo : Nat → UInt16
  ctrl : Ctrl
  synAlongInfo : SynInfo
  electricalSampleTime : UInt32
  electricalSampleInterval : UInt16
  actuatorSampleTime : UInt32
  actuatorSampleInterval : UInt16
  sent : List (List UInt8)
  serving : Ctrl
  history : List SynEvent

/-- Which of the two threads. -/
inductive Role where
  | master
  | slave
  deriving DecidableEq, Repr

/-- What the threads' code relies on: the platform, what an unwritten local holds,
and its floating-point results as register words. -/
structure Host where
  env : Platform
  stack : UInt16
  /-- The twelve results from the scale, the ratios, the quantities and the parameters. -/
  electricalResult : (u0 i0 upp ipp : UInt16) → (quantity param : List UInt16) → List UInt16
  /-- `(float)n / 1000.0` in storage order. -/
  thousandth : Nat → List UInt16

/-- A host without floating point. -/
def Host.bare (env : Platform) : Host where
  env := env
  stack := 0
  electricalResult := fun _ _ _ _ _ _ => []
  thousandth := fun _ => []

/-! ### The message handlers -/

@[simp] def elecWellNoAddr : Nat := 17
@[simp] def actuatorWellNoAddr : Nat := 18

/-- `MAP_ADDR_SERIAL_PORT`, `MAP_ADDR_RS485_MASTER_SERIAL_PORT`. -/
def Role.portAddr : Role → Nat
  | .slave => 33
  | .master => 171

namespace Rs485

variable (h : Host) (role : Role)

/-- `zigbee_read_registers(port_info, 5, 1, …)`. -/
def readPortInfo (s : Rs485) : Rs485 :=
  match zigbeeReadRegisters h.env s.rtu s.portInfo 5 1 role.portAddr with
  | some ws => { s with portInfo := fun k => ws.getD k 0 }
  | none => s

/-- The settings the handler finds in the registers. -/
def foundSettings (s : Rs485) : PortSettings :=
  initPortInfo (s.readPortInfo h role).portInfo tempSettings

/-- Whether a `MSG_CONFIG_START` finds the settings changed. -/
def Reconfigures (s : Rs485) : Prop := s.foundSettings h role ≠ s.port

instance (s : Rs485) : Decidable (s.Reconfigures h role) := inferInstanceAs (Decidable (_ ≠ _))

/-- `modbus_free(ctx); ctx = modbus_new_rtu(…); modbus_set_slave(ctx, 1)`. -/
def renew (p : PortSettings) (s : Rs485) : Rs485 :=
  { s with
    port := p
    contexts := Function.update
      (Function.update s.contexts s.ctx { s.contexts s.ctx with alive := false })
      s.allocated .fresh
    ctx := s.allocated
    allocated := s.allocated + 1 }

/-- `if (x > 600 || x < 10) x = 30`. -/
def sampleInterval (v : UInt16) : UInt16 := if v > 600 ∨ v < 10 then 30 else v

/-- The two sampling intervals read anew. -/
def readIntervals (s : Rs485) : Rs485 :=
  let actuatorWellNo := readWord h.env s.rtu h.stack 1 actuatorWellNoAddr
  let electricalWellNo := readWord h.env s.rtu h.stack 1 elecWellNoAddr
  { s with
    electricalSampleInterval := sampleInterval
      (readWord h.env s.rtu s.electricalSampleInterval electricalWellNo.toNat elecIntervalAddr)
    actuatorSampleInterval := sampleInterval
      (readWord h.env s.rtu s.actuatorSampleInterval actuatorWellNo.toNat actuatorIntervalAddr) }

/-- `msg_handler` of the thread. -/
def msgHandler (msg : Msg) (s : Rs485) : Rs485 :=
  match msg, role with
  | .configStart, _ =>
    if s.Reconfigures h role then (s.readPortInfo h role).renew (s.foundSettings h role)
    else s.readPortInfo h role
  | .config2Start, .master => s.readIntervals h
  | .loadElecSysn synchronTime cycleTime samplePoints _, .master =>
    let p : SynInfo := ⟨synchronTime, cycleTime, samplePoints⟩
    { s with ctrl := .electricalSync, synAlongInfo := p, history := s.history ++ [.requested p] }
  | .config2Start, .slave | .loadElecSysn .., .slave | .requestHData _, _ => s

/-- The chain of tests on the two sampling timers. The differences are unsigned. -/
def chooseOperation (s : Rs485) : Rs485 :=
  let now := UInt32.ofInt s.rtu.time
  if now - s.electricalSampleTime > s.electricalSampleInterval.toUInt32 ∧ s.ctrl = .default then
    { s with electricalSampleTime := now, ctrl := .electrical }
  else if now - s.actuatorSampleTime > s.actuatorSampleInterval.toUInt32 ∧ s.ctrl = .default then
    { s with actuatorSampleTime := now, ctrl := .actuator }
  else s

/-- `switch (*p_ctrl)`: the operation that is started. -/
def beginServing (s : Rs485) : Rs485 :=
  { s with
    serving := s.ctrl
    history :=
      if s.ctrl = .electricalSync then s.history ++ [.started s.synAlongInfo] else s.history }

end Rs485

/-! ### What is sent -/

/-- The bytes of a 32-bit number, high byte first. -/
def beBytes32 (n : Nat) : List UInt8 :=
  [n / 16777216, n / 65536, n / 256, n].map fun k => UInt8.ofNat (k % 256)

/-- `packet_sum_check` and the trailer of an actuator frame. -/
def actuatorFrame (body : List UInt8) : List UInt8 :=
  let sum := body.foldl (fun t b => (t + b.toNat) % 65536) 0
  body ++ [UInt8.ofNat (sum / 256), UInt8.ofNat (sum % 256), 0xEE]

/-- What the master sends: the two Modbus requests, and the two frames of the
actuators. -/
inductive LineRequest where
  | readRegisters (addr nb : Nat)
  | writeRegisters (addr : Nat) (words : List UInt16)
  | actuatorParam (injec : List UInt16) (accuracy autoFlag : UInt16)
  | actuatorData (now : Int)
  deriving DecidableEq, Repr

/-- The frame, from a context with this `slave`. The 32-bit allotment is held with
its high register first, and sent times 1000. -/
def LineRequest.frame (slave : Int) : LineRequest → List UInt8
  | .readRegisters addr nb =>
    Backend.rtu.sendMsgPre ([UInt8.ofInt slave, 3] ++
      [addr / 256, addr % 256, nb / 256, nb % 256].map UInt8.ofNat)
  | .writeRegisters addr words =>
    Backend.rtu.sendMsgPre ([UInt8.ofInt slave, 16] ++
      [addr / 256, addr % 256, words.length / 256, words.length % 256, 2 * words.length].map
        UInt8.ofNat ++ words.flatMap fun w => [hiByte w, loByte w])
  | .actuatorParam injec accuracy autoFlag =>
    actuatorFrame ([0xCC, UInt8.ofInt slave, 2] ++
      beBytes32 (1000 * (65536 * (injec.getD 0 0).toNat + (injec.getD 1 0).toNat) % 4294967296) ++
      [loByte accuracy, loByte autoFlag, 0])
  | .actuatorData now =>
    actuatorFrame ([0xCC, UInt8.ofInt slave, 1] ++ beBytes32 (now % 4294967296).toNat ++
      List.replicate 6 0)

/-! ### The operations -/

/-- What the threads' code does, one step of it. -/
inductive Act where
  /-- The variable `ctx`. -/
  | getCtx
  /-- `master_485_ctrl`, read and written. -/
  | getCtrl
  | setCtrl (v : Ctrl)
  /-- The master's own `select` on its queue, and its handler. -/
  | waitMsg (c : Nat)
  | chooseOperation
  | switchCtrl
  /-- `syn_along_info[i]`. -/
  | syn (i : Fin 3)
  | time
  | gettimeofday
  | timerSleep (until_ : Timeval)
  | setSlave (c : Nat) (v : Int)
  /-- `ctx->slave = v`. -/
  | putSlave (c : Nat) (v : Int)
  | getSlave (c : Nat)
  /-- Any other field of the context. -/
  | touch (c : Nat)
  /-- A request written to the line; the frame, unless that fails. -/
  | send (c : Nat) (request : LineRequest)
  /-- `_modbus_rtu_select`, with the handler it may run. -/
  | select (c : Nat)
  /-- `_modbus_rtu_recv` of at most `n` bytes; none for a failure too. -/
  | recv (c : Nat) (n : Nat)
  | reply (c : Nat) (req : List UInt8)
  /-- The well number an operation reads for itself, from this cell of well 1. -/
  | ownWellNo (addr : Nat)
  | readWord (cur : UInt16) (w addr : Nat)
  | readWords (buf : List UInt16) (w addr : Nat)
  | writeWords (w addr : Nat) (words : List UInt16)
  | saveTime (w addr : Nat)
  /-- `time(&meter_sample_time[row][slot])`. -/
  | stampSample (row : Int) (slot : Nat)
  /-- `memset(elec_param_meter_mac[row], 0, 10)`. -/
  | clearMac (row : Int)
  /-- An integer division. -/
  | divide (a b : Int)

/-- What an operation is answered with. -/
abbrev Act.Out : Act → Type
  | .getCtx => Nat
  | .getCtrl | .switchCtrl => Ctrl
  | .syn _ | .ownWellNo _ | .readWord .. => UInt16
  | .time | .getSlave _ | .divide .. => Int
  | .gettimeofday => Timeval
  | .send .. => Option (List UInt8)
  | .select _ => Bool
  | .recv .. => List UInt8
  | .readWords .. => List UInt16
  | .setCtrl _ | .waitMsg _ | .chooseOperation | .timerSleep _ | .setSlave .. | .putSlave ..
  | .touch _ | .reply .. | .writeWords .. | .saveTime .. | .stampSample .. | .clearMac _ => Unit

/-- The context an operation follows. -/
def Act.context : Act → Option Nat
  | .waitMsg c | .setSlave c _ | .putSlave c _ | .getSlave c | .touch c | .send c _ | .select c
  | .recv c _ | .reply c _ => some c
  | _ => none

/-- The world's part in one operation. -/
structure Input where
  /-- What the other threads have done to the unit. -/
  others : Rtu → Rtu
  /-- Whether a wait ends before its time, or a write succeeds. -/
  ready : Bool
  /-- The message the queue has for this wait. -/
  msg : Option Msg
  bytes : List UInt8
  clock : Timeval

/-- An input on which the other threads rest. -/
def calm (ready : Bool) (msg : Option Msg) (clock : Timeval) : Input := ⟨id, ready, msg, [], clock⟩

namespace Rs485

/-- The unit as the other threads leave it. -/
def arrive (i : Input) (s : Rs485) : Rs485 := { s with rtu := i.others s.rtu }

/-- A change of the unit. -/
def onRtu (f : Rtu → Rtu) (s : Rs485) : Rs485 := { s with rtu := f s.rtu }

/-- A change of one context. -/
def onContext (c : Nat) (f : Context → Context) (s : Rs485) : Rs485 :=
  { s with contexts := Function.update s.contexts c (f (s.contexts c)) }

/-- What a wait does: the message of the queue, if there is one, is handled. -/
def take (h : Host) (role : Role) (i : Input) (s : Rs485) : Rs485 :=
  match i.ready, i.msg with
  | true, some msg => s.msgHandler h role msg
  | _, _ => s

variable (h : Host) (role : Role)

/-- The operation, its context being alive. -/
def perform : (e : Act) → Input → Rs485 → Option (e.Out × Rs485)
  | .getCtx, _, s => some (s.ctx, s)
  | .getCtrl, _, s => some (s.ctrl, s)
  | .setCtrl v, _, s => some ((), { s with ctrl := v })
  | .waitMsg _, i, s => some ((), s.take h role i)
  | .chooseOperation, _, s => some ((), s.chooseOperation)
  | .switchCtrl, _, s => some (s.ctrl, s.beginServing)
  | .syn k, _, s => some (s.synAlongInfo.word k, s)
  | .time, _, s => some (s.rtu.time, s)
  | .gettimeofday, i, s => some (i.clock, s)
  | .timerSleep _, _, s => some ((), s)
  | .setSlave c v, _, s => some ((), s.onContext c (.setSlave v))
  | .putSlave c v, _, s => some ((), s.onContext c ({ · with slave := v, asked := v }))
  | .getSlave c, _, s => some ((s.contexts c).slave, s)
  | .touch _, _, s => some ((), s)
  | .send c request, i, s =>
    let frame := request.frame (s.contexts c).slave
    if i.ready then some (some frame, { s with sent := s.sent ++ [frame] }) else some (none, s)
  | .select _, i, s => some (i.ready, s.take h role i)
  | .recv _ n, i, s => some (i.bytes.take n, s)
  | .reply _ req, _, s =>
    some ((), s.onRtu fun r => (modbusReply h.env .rtu (fun k => req.getD k 0) req.length r).2)
  | .ownWellNo addr, _, s => some (RtuA118.readWord h.env s.rtu h.stack 1 addr, s)
  | .readWord cur w addr, _, s => some (RtuA118.readWord h.env s.rtu cur w addr, s)
  | .readWords buf w addr, _, s =>
    some ((zigbeeReadRegisters h.env s.rtu (fun k => buf.getD k 0) buf.length w addr).getD buf, s)
  | .writeWords w addr words, _, s => some ((), s.onRtu (RtuA118.writeWords h.env w addr words))
  | .saveTime w addr, _, s =>
    some ((), s.onRtu fun r => RtuA118.writeWords h.env w addr (timeWords h.env r) r)
  | .stampSample row slot, _, s =>
    if 0 ≤ row ∧ row < 9 then
      some ((), s.onRtu fun r => { r with meterSampleTime := fun i k =>
        if i = row.toNat ∧ k = slot then r.time else r.meterSampleTime i k })
    else none
  | .clearMac row, _, s =>
    if 0 ≤ row ∧ row < 9 then
      some ((), s.onRtu fun r => { r with elecParamMeterMac := fun i k =>
        if i = row.toNat ∧ k < 10 then 0 else r.elecParamMeterMac i k })
    else none
  | .divide a b, _, s => if b = 0 then none else some (a.tdiv b, s)

/-- The context an operation follows, if any, is allocated. -/
def Follows (s : Rs485) (e : Act) : Prop := ∀ c ∈ e.context, (s.contexts c).alive = true

instance (s : Rs485) (e : Act) : Decidable (s.Follows e) := inferInstanceAs (Decidable (∀ _ ∈ _, _))

/-- What an operation does. -/
def exec : Exec Act Act.Out Rs485 Input := fun e i s =>
  if s.Follows e then perform h role e i (s.arrive i) else none

end Rs485

/-- Programs of the RS485 threads. -/
abbrev Serial := Prog Act Act.Out

namespace Serial

abbrev getCtx : Serial Nat := .op Act.getCtx
abbrev getCtrl : Serial Ctrl := .op Act.getCtrl
abbrev setCtrl (v : Ctrl) : Serial Unit := .op (Act.setCtrl v)
abbrev waitMsg (c : Nat) : Serial Unit := .op (Act.waitMsg c)
abbrev chooseOperation : Serial Unit := .op Act.chooseOperation
abbrev switchCtrl : Serial Ctrl := .op Act.switchCtrl
abbrev syn (i : Fin 3) : Serial UInt16 := .op (Act.syn i)
abbrev time : Serial Int := .op Act.time
abbrev gettimeofday : Serial Timeval := .op Act.gettimeofday
abbrev timerSleep (t : Timeval) : Serial Unit := .op (Act.timerSleep t)
abbrev setSlave (c : Nat) (v : Int) : Serial Unit := .op (Act.setSlave c v)
abbrev putSlave (c : Nat) (v : Int) : Serial Unit := .op (Act.putSlave c v)
abbrev getSlave (c : Nat) : Serial Int := .op (Act.getSlave c)
abbrev touch (c : Nat) : Serial Unit := .op (Act.touch c)
abbrev send (c : Nat) (request : LineRequest) : Serial (Option (List UInt8)) :=
  .op (Act.send c request)
abbrev select (c : Nat) : Serial Bool := .op (Act.select c)
abbrev recv (c n : Nat) : Serial (List UInt8) := .op (Act.recv c n)
abbrev reply (c : Nat) (req : List UInt8) : Serial Unit := .op (Act.reply c req)
abbrev ownWellNo (addr : Nat) : Serial UInt16 := .op (Act.ownWellNo addr)
abbrev fetchWord (cur : UInt16) (w addr : Nat) : Serial UInt16 := .op (Act.readWord cur w addr)
abbrev fetchWords (buf : List UInt16) (w addr : Nat) : Serial (List UInt16) :=
  .op (Act.readWords buf w addr)
abbrev storeWords (w addr : Nat) (words : List UInt16) : Serial Unit :=
  .op (Act.writeWords w addr words)
abbrev saveTime (w addr : Nat) : Serial Unit := .op (Act.saveTime w addr)
abbrev stampSample (row : Int) (slot : Nat) : Serial Unit := .op (Act.stampSample row slot)
abbrev clearMac (row : Int) : Serial Unit := .op (Act.clearMac row)
abbrev divide (a b : Int) : Serial Int := .op (Act.divide a b)

end Serial

end RtuA118
