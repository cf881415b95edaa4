import RtuA118.Lib.Store
import RtuA118.Csv

/-!
# RtuA118.Map.State

The state of the unit: the register map of `data/map.h`, the rest of the global
`rtu_a118_t` the modelled code touches, and the platform it runs on.

Each map array is a **flat store** over all wells, as in the source: the block
of well `w` starts at `x_max * (w - 1)` for the cell arrays and at
`10000 * (w - 1)` for the register arrays. `flash1` is shared by all wells.

In memory the arrays lie one behind the other, and a store past the end of one lands
in the next (`RtuA118.Map.Block`). The model keeps them apart, so it speaks for the
program where every store stays inside its array. Requests are checked for that, mapping
files are not: `RtuA118.Map.LoaderBounds` says which of them keep the loads inside.

What the platform answers (files, clock conversion, `msync`, pins) is a
parameter; what the unit sends out (queue messages, pin levels, radio frames) is
kept in the state in the order it was sent.
-/

namespace RtuA118

/-- `MAX_WELL_NUM` of `map.c`. -/
def maxWellNum : Nat := 8

/-- `MAX_REGISTER_NUM`. -/
def maxRegisterNum : Nat := 10000

/-- `FLASH1_MAX_LEN`. -/
def flash1MaxLen : Nat := 300

/-! ### The register map -/

/-- `Map_t`. -/
structure MapT where
  xMax : Nat
  ramX : Nat → UInt16
  ramXMapType : Nat → MapKind
  ramXMapRecord : Nat → MapKind
  ramXMapRw : Nat → MapKind
  ramY : Nat → UInt16
  ramYMapType : Nat → MapKind
  flash1 : Nat → UInt16
  flash2 : Nat → UInt16

namespace MapT

/-- Start of well `w`'s block in the cell arrays. -/
def xBase (m : MapT) (w : Nat) : Nat := m.xMax * (w - 1)

/-- `*(ram_x + i) = v` in well `w`. -/
def setRamX (m : MapT) (w i : Nat) (v : UInt16) : MapT :=
  { m with ramX := Function.update m.ramX (m.xBase w + i) v }

/-- `*(flash1 + i) = v`. -/
def setFlash1 (m : MapT) (i : Nat) (v : UInt16) : MapT :=
  { m with flash1 := Function.update m.flash1 i v }

/-- `*(flash2 + i) = v` in well `w`. -/
def setFlash2 (m : MapT) (w i : Nat) (v : UInt16) : MapT :=
  { m with flash2 := Function.update m.flash2 (m.xBase w + i) v }

end MapT

/-- Start of well `w`'s block in the register arrays. -/
def yBase (w : Nat) : Nat := maxRegisterNum * (w - 1)

/-- `*(ram_y + i) = v` in well `w`. -/
def MapT.setRamY (m : MapT) (w i : Nat) (v : UInt16) : MapT :=
  { m with ramY := Function.update m.ramY (yBase w + i) v }

/-! ### The platform -/

/-- The fields of `struct tm` the program uses, counted as there. -/
structure Tm where
  tmHour : Int
  tmMin : Int
  tmSec : Int
  tmYear : Int
  tmMon : Int
  tmMday : Int

/-- What the code reads from outside itself. -/
structure Platform where
  /-- The text of a file; `none` where `fopen` fails. -/
  readFile : List Char → Option (List Char)
  localtime : Int → Tm
  mktime : Tm → Int
  /-- Whether the `n`-th call of `msync` succeeds. -/
  msync : Nat → Bool
  /-- The battery converter's text; `none` where it cannot be read. -/
  adc : Option (List Char)
  /-- The voltage computation in floating point. -/
  batteryScale : UInt16 → UInt16
  /-- Whether the pin device is open, and the level of a pin by its index. -/
  ioOpen : Bool
  gpioStatus : Nat → UInt16
  macAddr : Nat → UInt16

/-- The message queues of the program's threads. -/
inductive Queue where
  | zigbee
  | tcpServer
  | udpServer
  | rtuServer
  | tcpClient
  | rtuClient
  | data
  deriving DecidableEq, Repr

/-- The messages the register map and the meter code post. -/
inductive Msg where
  | configStart
  | config2Start
  | requestHData (well : Nat)
  | loadElecSysn (synchronTime cycleTime samplePoints group : UInt16)
  deriving DecidableEq, Repr

/-! ### The unit -/

/-- The unit: `map_map_t`, the clock and the fields of `rtu_a118_t` in use,
followed by what has been sent out so far. -/
structure Rtu where
  map : MapT
  time : Int
  timeSetStatus : UInt8
  flash1ResetStatus : UInt8
  meterSampleTime : Nat → Nat → Int
  equMeterParaTime : Nat → Nat → Int
  elecParamMeterMac : Nat → Nat → UInt8
  msyncs : Nat
  posted : List (Queue × Msg)
  driven : List (Nat × UInt16)
  radio : List (List UInt8)

/-- A platform with the given files, a clock in UTC hours and no devices. -/
def Platform.bare (readFile : List Char → Option (List Char)) : Platform where
  readFile := readFile
  localtime := fun t => ⟨t / 3600 % 24, t / 60 % 60, t % 60, 70, 0, 1⟩
  mktime := fun tm => tm.tmHour * 3600 + tm.tmMin * 60 + tm.tmSec
  msync := fun _ => true
  adc := none
  batteryScale := id
  ioOpen := false
  gpioStatus := fun _ => 0
  macAddr := fun _ => 0

namespace Rtu

/-- The unit over a loaded map: the other globals start at zero. -/
def start (m : MapT) : Rtu where
  map := m
  time := 0
  timeSetStatus := 0
  flash1ResetStatus := 0
  meterSampleTime := fun _ _ => 0
  equMeterParaTime := fun _ _ => 0
  elecParamMeterMac := fun _ _ => 0
  msyncs := 0
  posted := []
  driven := []
  radio := []

/-- The unit with its map changed. -/
def onMap (f : MapT → MapT) (s : Rtu) : Rtu := { s with map := f s.map }

/-- `pmsg_q_send`. -/
def post (q : Queue) (msg : Msg) (s : Rtu) : Rtu := { s with posted := s.posted ++ [(q, msg)] }

/-- One `msync`: whether it succeeded, and the unit with the call counted. -/
def msync (env : Platform) (s : Rtu) : Bool × Rtu :=
  (env.msync s.msyncs, { s with msyncs := s.msyncs + 1 })

@[simp] theorem onMap_map (f : MapT → MapT) (s : Rtu) : (s.onMap f).map = f s.map := rfl

@[simp] theorem post_map (q : Queue) (msg : Msg) (s : Rtu) : (s.post q msg).map = s.map := rfl

@[simp] theorem post_time (q : Queue) (msg : Msg) (s : Rtu) : (s.post q msg).time = s.time := rfl

@[simp] theorem post_msyncs (q : Queue) (msg : Msg) (s : Rtu) :
    (s.post q msg).msyncs = s.msyncs := rfl

@[simp] theorem msync_fst (env : Platform) (s : Rtu) :
    (s.msync env).1 = env.msync s.msyncs := rfl

theorem msync_eq {env : Platform} {s s' : Rtu} {b : Bool} (h : s.msync env = (b, s')) :
    env.msync s.msyncs = b ∧ s' = { s with msyncs := s.msyncs + 1 } := by
  unfold msync at h
  cases h
  exact ⟨rfl, rfl⟩

@[simp] theorem msync_snd_map (env : Platform) (s : Rtu) : (s.msync env).2.map = s.map := rfl

end Rtu

namespace MapT

@[simp] theorem setRamX_xMax (m : MapT) (w i : Nat) (v : UInt16) :
    (m.setRamX w i v).xMax = m.xMax := rfl

@[simp] theorem setFlash1_xMax (m : MapT) (i : Nat) (v : UInt16) :
    (m.setFlash1 i v).xMax = m.xMax := rfl

@[simp] theorem setFlash2_xMax (m : MapT) (w i : Nat) (v : UInt16) :
    (m.setFlash2 w i v).xMax = m.xMax := rfl

@[simp] theorem setRamY_xMax (m : MapT) (w i : Nat) (v : UInt16) :
    (m.setRamY w i v).xMax = m.xMax := rfl

end MapT

end RtuA118
