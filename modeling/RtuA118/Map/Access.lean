import RtuA118.Map.Load

/-!
# RtuA118.Map.Access

Internal access to the register map: the function-mapped cells, and the three
`zigbee_*_registers` entry points every other part of the program goes through.

A **function-mapped** cell (kind `sys`) has code behind it: the clock, the pins,
the well type, the request for history data. `mapMapFunRead` and
`mapMapFunWrite` answer `none` where the index has none (`-1` in the source).

Pointer arguments are functions from an offset to the word there.
-/

namespace RtuA118

/-! ### Function indices -/

/-- The enumeration of function-mapped indices. -/
def mapChangeWellType : Nat := 0
def mapGetRtuVer : Nat := 2
def mapGetTimeHour : Nat := 4
def mapGetTimeMin : Nat := 5
def mapGetTimeSec : Nat := 6
def mapGetTimeYear : Nat := 7
def mapGetTimeMon : Nat := 8
def mapGetTimeDay : Nat := 9
def mapGetBatteryVoltage : Nat := 10
def mapConfig1 : Nat := 16
def mapGetMac0 : Nat := 50
def mapConfig2ElecInterv : Nat := 1796
def mapConfig2ActInterv : Nat := 1870
def mapGetDI0 : Nat := 1854
def mapGetDO0 : Nat := 1862
def mapGetHistory : Nat := 1901

/-- `RTU_VERSION`. -/
def rtuVersion : UInt16 := 1

/-! ### Reading a function-mapped cell -/

/-- `map_gettime`. -/
def mapGettime (env : Platform) (s : Rtu) (addr : Nat) : UInt16 :=
  let tm := env.localtime s.time
  let field : Int :=
    if addr = mapGetTimeHour then tm.tmHour
    else if addr = mapGetTimeMin then tm.tmMin
    else if addr = mapGetTimeSec then tm.tmSec
    else if addr = mapGetTimeYear then tm.tmYear + 1900
    else if addr = mapGetTimeMon then tm.tmMon + 1
    else tm.tmMday
  int16ToBcd (UInt16.ofInt field)

/-- `get_battery_voltage` on a word that holds `cur` before. The last character
of the converter's text is cut off before it is scanned. -/
def getBatteryVoltage (env : Platform) (cur : UInt16) : UInt16 :=
  match env.adc with
  | none => cur
  | some text =>
    match scanHd (text.dropLast.dropWhile isSpace) with
    | none => 0xFFFF
    | some (v, _) => env.batteryScale v

/-- `gpio_get_do` and the inversion after it, on a word that holds `cur`. -/
def readDI (env : Platform) (cur : UInt16) (addr : Nat) : UInt16 :=
  ((if env.ioOpen then env.gpioStatus addr else cur) &&& 1) ^^^ 1

/-- `map_map_fun_read` into a word that holds `cur` before; `none` for `-1`. -/
def mapMapFunRead (env : Platform) (s : Rtu) (cur : UInt16) (w addr : Nat) : Option UInt16 :=
  if addr = mapChangeWellType then some (s.map.flash2 (s.map.xBase w + addr))
  else if addr = mapGetRtuVer then some rtuVersion
  else if mapGetTimeHour ≤ addr ∧ addr ≤ mapGetTimeDay then some (mapGettime env s addr)
  else if addr = mapGetBatteryVoltage then some (getBatteryVoltage env cur)
  else if addr = mapConfig1 then some 0
  else if mapGetMac0 ≤ addr ∧ addr < mapGetMac0 + 6 then some (env.macAddr (addr - mapGetMac0))
  else if addr = mapConfig2ElecInterv ∨ addr = mapConfig2ActInterv then
    some (s.map.flash2 (s.map.xBase w + addr))
  else if mapGetDI0 ≤ addr ∧ addr < mapGetDI0 + 8 then some (readDI env cur addr)
  else if mapGetDO0 ≤ addr ∧ addr < mapGetDO0 + 8 then
    some (s.map.flash2 (s.map.xBase 1 + addr))
  else none

/-! ### Writing a function-mapped cell -/

/-- `map_settime`. The kernel refuses a time before the epoch. -/
def mapSettime (env : Platform) (addr : Nat) (v : UInt16) (s : Rtu) : Rtu :=
  let n : Int := (bcdToInt16 v).toNat
  let tm := env.localtime s.time
  let tm : Tm :=
    if addr = mapGetTimeHour then { tm with tmHour := n }
    else if addr = mapGetTimeMin then { tm with tmMin := n }
    else if addr = mapGetTimeSec then { tm with tmSec := n }
    else if addr = mapGetTimeYear then { tm with tmYear := n - 1900 }
    else if addr = mapGetTimeMon then { tm with tmMon := n - 1 }
    else { tm with tmMday := n }
  let t := env.mktime tm
  { s with
    time := if 0 ≤ t then t else s.time
    timeSetStatus := s.timeSetStatus + 1 }

/-- `rtu_reset_flash1`: the word it leaves in the buffer, and the unit. -/
def rtuResetFlash1 (v : UInt16) (s : Rtu) : UInt16 × Rtu :=
  if v = 1 then
    let s := [Queue.zigbee, .tcpServer, .udpServer, .rtuServer, .tcpClient, .rtuClient].foldl
      (fun s q => s.post q .configStart) s
    (0, { s with flash1ResetStatus := s.flash1ResetStatus + 1 })
  else (v, s)

/-- `gpio_set_do`. -/
def gpioSetDo (env : Platform) (addr : Nat) (v : UInt16) (s : Rtu) : Rtu :=
  if env.ioOpen then { s with driven := s.driven ++ [(addr, v)] } else s

/-- The stores after a configuration or output cell's own action: into the flash
of well `wf`, into the cell of well `w`, and `msync`, whose failure is only
reported. -/
def storeFun (env : Platform) (wf w addr : Nat) (v : UInt16) (s : Rtu) : Rtu :=
  ((s.onMap fun m => (m.setFlash2 wf addr v).setRamX w addr v).msync env).2

/-- `map_map_fun_write`: the word it leaves in the buffer and the unit; `none`
for `-1`. -/
def mapMapFunWrite (env : Platform) (v : UInt16) (w addr : Nat) (s : Rtu) :
    Option (UInt16 × Rtu) :=
  if addr = mapChangeWellType then some (v, (mapItemRemap env w v s).2)
  else if mapGetTimeHour ≤ addr ∧ addr ≤ mapGetTimeDay then some (v, mapSettime env addr v s)
  else if addr = mapConfig1 then some (rtuResetFlash1 v s)
  else if addr = mapConfig2ElecInterv ∨ addr = mapConfig2ActInterv then
    some (v, storeFun env w w addr v (s.post .rtuClient .config2Start))
  else if mapGetDO0 ≤ addr ∧ addr < mapGetDO0 + 8 then
    some (v, storeFun env 1 w addr v (gpioSetDo env addr v s))
  else if addr = mapGetHistory then
    some (v, (s.onMap (·.setRamX w addr v)).post .data (.requestHData w))
  else none

/-! ### `zigbee_read_registers` -/

/-- The switch of the read loops on one cell, into a word that holds `cur`. -/
def readCell (env : Platform) (s : Rtu) (cur : UInt16) (w i : Nat) : UInt16 :=
  match s.map.ramXMapType (s.map.xBase w + i) with
  | .null | .ram => s.map.ramX (s.map.xBase w + i)
  | .flash1 => s.map.flash1 i
  | .flash2 => s.map.flash2 (s.map.xBase w + i)
  | .sys => (mapMapFunRead env s cur w i).getD (s.map.ramX (s.map.xBase w + i))
  | .record | .ro | .rw => cur

/-- The guard all internal access functions share. -/
def cellArgsOk (m : MapT) (len wellNum addr : Int) : Bool :=
  !(decide (wellNum > maxWellNum) || decide (wellNum < 1) || decide (addr < 0) || decide (len < 1)
    || decide (addr + len > m.xMax))

/-- `zigbee_read_registers` into a buffer that holds `buf` before; `none` for `-1`. -/
def zigbeeReadRegisters (env : Platform) (s : Rtu) (buf : Nat → UInt16) (len wellNum addr : Int) :
    Option (List UInt16) :=
  if cellArgsOk s.map len wellNum addr then
    some ((List.range len.toNat).map fun k =>
      readCell env s (buf k) wellNum.toNat (addr.toNat + k))
  else none

/-! ### `zigbee_write_registers` -/

/-- The switch of the write loop on one cell: `false` where it returns `-1`. -/
def writeCell (env : Platform) (w i : Nat) (v : UInt16) (s : Rtu) : Bool × Rtu :=
  match s.map.ramXMapType (s.map.xBase w + i) with
  | .null | .ram => (true, s.onMap (·.setRamX w i v))
  | .flash1 =>
    match (s.onMap (·.setFlash1 i v)).msync env with
    | (true, s) => (true, s.onMap (·.setRamX w i v))
    | (false, s) => (false, s)
  | .flash2 =>
    match (s.onMap (·.setFlash2 w i v)).msync env with
    | (true, s) => (true, s.onMap (·.setRamX w i v))
    | (false, s) => (false, s)
  | .sys =>
    match mapMapFunWrite env v w i s with
    | some (v', s) => (true, s.onMap (·.setRamX w i v'))
    | none => (true, s.onMap (·.setRamX w i v))
  | .record | .ro | .rw => (true, s)

/-- The write loop. -/
def writeCells (env : Platform) (w : Nat) : Nat → List UInt16 → Rtu → Int × Rtu
  | _, [], s => (0, s)
  | i, v :: vs, s =>
    match writeCell env w i v s with
    | (true, s) => writeCells env w (i + 1) vs s
    | (false, s) => (-1, s)

/-- `zigbee_write_registers` of the words at `buf`. -/
def zigbeeWriteRegisters (env : Platform) (buf : Nat → UInt16) (len wellNum addr : Int) (s : Rtu) :
    Int × Rtu :=
  if cellArgsOk s.map len wellNum addr then
    writeCells env wellNum.toNat addr.toNat ((List.range len.toNat).map buf) s
  else (-1, s)

/-- `zigbee_write_registers_mset`: `memset` takes the low byte of `v`. -/
def zigbeeWriteRegistersMset (v : UInt16) (len wellNum addr : Int) (s : Rtu) : Int × Rtu :=
  if cellArgsOk s.map len wellNum addr then
    (0, s.onMap fun m => { m with
      ramX := Store.fill (m.xBase wellNum.toNat + addr.toNat) len.toNat
        (wordOfBytes (loByte v) (loByte v)) m.ramX })
  else (-1, s)

/-! ### Guards -/

theorem cellArgsOk_iff {m : MapT} {len wellNum addr : Int} :
    cellArgsOk m len wellNum addr = true ↔
      wellNum ≤ 8 ∧ 1 ≤ wellNum ∧ 0 ≤ addr ∧ 1 ≤ len ∧ addr + len ≤ m.xMax := by
  have h8 : (maxWellNum : Int) = 8 := rfl
  simp only [cellArgsOk, Bool.not_eq_true', Bool.or_eq_false_iff, decide_eq_false_iff_not,
    and_assoc]
  omega

theorem cellArgsOk_one_iff {m : MapT} {w i : Nat} (hw : 1 ≤ w) (hw8 : w ≤ 8) :
    cellArgsOk m 1 w i = true ↔ i < m.xMax := by
  rw [cellArgsOk_iff]
  omega

/-! ### What a write of one cell does -/

@[simp] theorem rtuResetFlash1_map (v : UInt16) (s : Rtu) : (rtuResetFlash1 v s).2.map = s.map := by
  unfold rtuResetFlash1
  split
  · simp only [List.foldl_cons, List.foldl_nil, Rtu.post_map]
  · rfl

@[simp] theorem gpioSetDo_map (env : Platform) (addr : Nat) (v : UInt16) (s : Rtu) :
    (gpioSetDo env addr v s).map = s.map := by
  unfold gpioSetDo
  split <;> rfl

@[simp] theorem storeFun_map (env : Platform) (wf w addr : Nat) (v : UInt16) (s : Rtu) :
    (storeFun env wf w addr v s).map = (s.map.setFlash2 wf addr v).setRamX w addr v := rfl

section Write

variable {env : Platform} {w i : Nat} {v : UInt16} {s : Rtu}

/-- The actions behind the function-mapped cells other than the well type's. -/
theorem mapMapFunWrite_cases {v' : UInt16} {s' : Rtu}
    (h : mapMapFunWrite env v w i s = some (v', s')) (h0 : i ≠ mapChangeWellType) :
    ((mapGetTimeHour ≤ i ∧ i ≤ mapGetTimeDay) ∧ v' = v ∧ s' = mapSettime env i v s) ∨
    (i = mapConfig1 ∧ v' = (rtuResetFlash1 v s).1 ∧ s' = (rtuResetFlash1 v s).2) ∨
    ((i = mapConfig2ElecInterv ∨ i = mapConfig2ActInterv) ∧ v' = v ∧
      s' = storeFun env w w i v (s.post .rtuClient .config2Start)) ∨
    ((mapGetDO0 ≤ i ∧ i < mapGetDO0 + 8) ∧ v' = v ∧
      s' = storeFun env 1 w i v (gpioSetDo env i v s)) ∨
    (i = mapGetHistory ∧ v' = v ∧
      s' = (s.onMap (·.setRamX w i v)).post .data (.requestHData w)) := by
  unfold mapMapFunWrite at h
  rw [if_neg h0] at h
  split_ifs at h with htime hreset hinterv hdo hhistory <;>
    obtain ⟨rfl, rfl⟩ := Prod.mk.inj (Option.some.inj h)
  · exact .inl ⟨htime, rfl, rfl⟩
  · exact .inr (.inl ⟨hreset, rfl, rfl⟩)
  · exact .inr (.inr (.inl ⟨hinterv, rfl, rfl⟩))
  · exact .inr (.inr (.inr (.inl ⟨hdo, rfl, rfl⟩)))
  · exact .inr (.inr (.inr (.inr ⟨hhistory, rfl, rfl⟩)))

/-- A cell in the first flash: its copy in `ram_x` follows when `msync` succeeds. -/
theorem writeCell_flash1 (ht : s.map.ramXMapType (s.map.xBase w + i) = .flash1) :
    writeCell env w i v s = (env.msync s.msyncs, ((s.onMap (·.setFlash1 i v)).msync env).2.onMap
      fun m => if env.msync s.msyncs = true then m.setRamX w i v else m) := by
  rw [writeCell, ht]
  dsimp only
  split <;>
    · rename_i s' hm
      obtain ⟨hb, rfl⟩ := Rtu.msync_eq hm
      rw [show env.msync s.msyncs = _ from hb]
      rfl

theorem writeCell_flash2 (ht : s.map.ramXMapType (s.map.xBase w + i) = .flash2) :
    writeCell env w i v s = (env.msync s.msyncs, ((s.onMap (·.setFlash2 w i v)).msync env).2.onMap
      fun m => if env.msync s.msyncs = true then m.setRamX w i v else m) := by
  rw [writeCell, ht]
  dsimp only
  split <;>
    · rename_i s' hm
      obtain ⟨hb, rfl⟩ := Rtu.msync_eq hm
      rw [show env.msync s.msyncs = _ from hb]
      rfl

end Write

/-- A one-word write is the switch on its cell. -/
theorem zigbeeWriteRegisters_one {env : Platform} {buf : Nat → UInt16} {w i : Nat} {s : Rtu}
    (hw : 1 ≤ w) (hw8 : w ≤ 8) :
    (zigbeeWriteRegisters env buf 1 w i s).2 =
      if i < s.map.xMax then (writeCell env w i (buf 0) s).2 else s := by
  unfold zigbeeWriteRegisters
  by_cases hi : i < s.map.xMax
  · rw [if_pos ((cellArgsOk_one_iff hw hw8).2 hi), if_pos hi]
    simp only [Int.toNat_one, List.range_one, List.map_cons, List.map_nil, Int.toNat_natCast,
      writeCells]
    rcases h : writeCell env w i (buf 0) s with ⟨_ | _, s'⟩ <;> rfl
  · rw [if_neg (fun h => hi ((cellArgsOk_one_iff hw hw8).1 h)), if_neg hi]

/-- A one-word read is the switch on its cell. -/
theorem zigbeeReadRegisters_one {env : Platform} {buf : Nat → UInt16} {w i : Nat} {s : Rtu}
    (hw : 1 ≤ w) (hw8 : w ≤ 8) :
    zigbeeReadRegisters env s buf 1 w i =
      if i < s.map.xMax then some [readCell env s (buf 0) w i] else none := by
  unfold zigbeeReadRegisters
  by_cases hi : i < s.map.xMax
  · rw [if_pos ((cellArgsOk_one_iff hw hw8).2 hi), if_pos hi]
    simp
  · rw [if_neg (fun h => hi ((cellArgsOk_one_iff hw hw8).1 h)), if_neg hi]

/-- The registers from `addr` on read as these words, whatever the buffer held. -/
def ReadsAs (env : Platform) (s : Rtu) (w addr : Nat) (words : List UInt16) : Prop :=
  ∀ buf, zigbeeReadRegisters env s buf words.length w addr = some words

end RtuA118
