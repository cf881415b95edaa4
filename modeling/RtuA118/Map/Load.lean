import RtuA118.Map.State

/-!
# RtuA118.Map.Load

The loader of the mapping files, and the three places that run it:

* `mapInit`, the boot: the pre-scan of every type file for the block size, the
  common file loaded into well 1 and copied to the other wells, then each well's
  type file over it;
* `mapItemRemap`, the change of one well's type at run time;
* the factory reset of the shared area (`RtuA118.Map.Life`).

**Never returning.** The loader's range loop counts in 16 bits, so a range that
ends at `65535` never ends. `none` as a return code stands for that; the map
beside it is the one the loop goes on rewriting.

**A failing row** ends the load with `-1` and leaves the rows before it loaded.
-/

namespace RtuA118

/-! ### One file into one well -/

/-- The body of the loader's loops: one cell and the register leading to it. The
pointers `ram_x` and so on point at `xb`, `ram_y` at `yb`, `flash1` at its start. -/
def loadCell (xb yb : Nat) (flash1IsNew flash2IsNew : Bool) (m : MapT) (c : RowCell) : MapT :=
  { m with
    ramX := Function.update m.ramX (xb + c.x.toNat) c.dV
    ramXMapType := Function.update m.ramXMapType (xb + c.x.toNat) c.flags.mapType
    ramXMapRecord := Function.update m.ramXMapRecord (xb + c.x.toNat) c.flags.mapRecord
    ramXMapRw := Function.update m.ramXMapRw (xb + c.x.toNat) c.flags.mapRw
    ramY := Function.update m.ramY (yb + c.y.toNat) c.x
    ramYMapType := Function.update m.ramYMapType (yb + c.y.toNat) .ram
    flash1 :=
      if (c.flags.mapType = .sys ∨ c.flags.mapType = .flash1) ∧ flash1IsNew then
        Function.update m.flash1 c.x.toNat c.dV
      else m.flash1
    flash2 :=
      if (c.flags.mapType = .sys ∨ c.flags.mapType = .flash1) ∧ flash1IsNew then m.flash2
      else if (c.flags.mapType = .sys ∨ c.flags.mapType = .flash2) ∧ flash2IsNew then
        Function.update m.flash2 (xb + c.x.toNat) c.dV
      else m.flash2 }

/-- The loader's loop over the words of a file. -/
def loadWords (xb yb : Nat) (flash1IsNew flash2IsNew : Bool) :
    List (List Char) → MapT → Option Int × MapT
  | [], m => (some 0, m)
  | w :: ws, m =>
    match parseRow w with
    | none => (some (-1), m)
    | some row =>
      let m' := row.cells.foldl (loadCell xb yb flash1IsNew flash2IsNew) m
      if row.endless then (none, m') else loadWords xb yb flash1IsNew flash2IsNew ws m'

/-- The copies after the common file: the first 300 cells of each cell array
and all registers of well 1, into one further well. Blocks of fewer cells are
overrun, the last of them into the next array. -/
def copyWell (flash2IsNew : Bool) (m : MapT) (wellIndex : Nat) : MapT :=
  { m with
    ramX := Store.copy (wellIndex * m.xMax) 0 flash1MaxLen m.ramX
    ramXMapType := Store.copy (wellIndex * m.xMax) 0 flash1MaxLen m.ramXMapType
    ramXMapRecord := Store.copy (wellIndex * m.xMax) 0 flash1MaxLen m.ramXMapRecord
    ramXMapRw := Store.copy (wellIndex * m.xMax) 0 flash1MaxLen m.ramXMapRw
    ramY := Store.copy (wellIndex * maxRegisterNum) 0 maxRegisterNum m.ramY
    ramYMapType := Store.copy (wellIndex * maxRegisterNum) 0 maxRegisterNum m.ramYMapType
    flash2 :=
      if flash2IsNew then Store.copy (wellIndex * m.xMax) 0 flash1MaxLen m.flash2 else m.flash2 }

/-- `ram_map_flash1_value_init`. -/
def ramMapFlash1ValueInit (env : Platform) (xb yb : Nat) (flash1IsNew flash2IsNew : Bool)
    (path : List Char) (isFlash1 : Bool) (m : MapT) : Option Int × MapT :=
  match env.readFile path with
  | none => (some (-1), m)
  | some text =>
    match loadWords xb yb flash1IsNew flash2IsNew (scanWords text) m with
    | (some 0, m') =>
      if isFlash1 then
        (some 0, (List.range' 1 (maxWellNum - 1)).foldl (copyWell flash2IsNew) m')
      else (some 0, m')
    | r => r

/-! ### The table of well types -/

/-- `PATH_MAP0`, `PATH_MAP1` and `PATH_MAP_001`. -/
def pathMap0 : List Char := "/usr/share/map0.csv".toList
def pathMap1 : List Char := "/usr/share/map1.csv".toList
def pathMap001 : List Char := "/usr/share/map_001.csv".toList

/-- The search loop of `get_map_00_path`: the first row of the type, unless a
row that does not scan comes before it. -/
def findType (type : UInt16) : List (List Char) → Option (List Char)
  | [] => none
  | w :: ws =>
    match parseMap0 w with
    | none => none
    | some (t, path) => if type = t then some path else findType type ws

/-- `get_map_00_path`; `none` for `-1`. -/
def getMap00Path (env : Platform) (type : UInt16) : Option (List Char) := do
  let text ← env.readFile pathMap0
  findType type (scanWords text)

/-- The largest index in a type file's rows so far, as `get_x_y_z_max_len` takes
it: the index of a single row, the last one of a range. It scans no values. -/
def maxOfRow (xMax : UInt16) (w : List Char) : Option UInt16 :=
  if strstr w ['~'] then do
    let (_, cs) ← scanHd w
    let cs ← scanLit '~' cs
    let (x1, cs) ← scanHd cs
    let cs ← scanLit ',' cs
    let (_, cs) ← scanHd cs
    let cs ← scanLit '~' cs
    let _ ← scanHd cs
    return max xMax x1
  else do
    let (x0, cs) ← scanHd w
    let cs ← scanLit ',' cs
    let _ ← scanHd cs
    return max xMax x0

/-- The largest index over all files the table of types names. -/
def maxOfTypes (env : Platform) : List (List Char) → UInt16 → Option UInt16
  | [], xMax => some xMax
  | w :: ws, xMax => do
    let (_, path) ← parseMap0 w
    let text ← env.readFile path
    let xMax ← (scanWords text).foldlM maxOfRow xMax
    maxOfTypes env ws xMax

/-- `get_x_y_z_max_len`; `none` for `-1`. The increment wraps at 16 bits. -/
def getXYZMaxLen (env : Platform) : Option UInt16 := do
  let text ← env.readFile pathMap0
  let xMax ← maxOfTypes env (scanWords text) 0
  if (xMax + 1).toNat > maxRegisterNum then none else some (xMax + 1)

/-! ### Boot -/

/-- A flash file: its length in bytes and its words. -/
structure FlashFile where
  size : Nat
  words : Nat → UInt16

/-- A new file of `len` words; the mapping reads zero behind them. -/
def newFlash (len : Nat) : Nat → UInt16 := fun i => if i < len then 0xFFFF else 0

/-- `flash_create` and `flash_map` for `len` words: whether the file is new, and
its words. A file of another length is written anew. -/
def flashOpen (len : Nat) : Option FlashFile → Bool × (Nat → UInt16)
  | none => (true, newFlash len)
  | some file => if file.size = 2 * len then (false, file.words) else (true, newFlash len)

/-- The map `ram_flash_create` hands over: empty tables over the flash files. -/
def emptyMap (xMax : Nat) (flash1 flash2 : Nat → UInt16) : MapT where
  xMax := xMax
  ramX := fun _ => 0xFFFF
  ramXMapType := fun _ => .null
  ramXMapRecord := fun _ => .null
  ramXMapRw := fun _ => .ro
  ramY := fun _ => 0xFFFF
  ramYMapType := fun _ => .null
  flash1 := flash1
  flash2 := flash2

/-- The type file of a well at boot. A type that is not in the table is
replaced by `1` in the flash and loads the built-in path. -/
def wellTypePath (env : Platform) (wellIndex : Nat) (m : MapT) : List Char × MapT :=
  match getMap00Path env (m.flash2 (wellIndex * m.xMax)) with
  | some path => (path, m)
  | none => (pathMap001, { m with flash2 := Function.update m.flash2 (wellIndex * m.xMax) 1 })

/-- One turn of the loop of `ram_map_flash2_value_init`. -/
def loadWell (env : Platform) (flash2IsNew : Bool) (wellIndex : Nat) (m : MapT) :
    Option Int × MapT :=
  let (path, m) := wellTypePath env wellIndex m
  ramMapFlash1ValueInit env (wellIndex * m.xMax) (wellIndex * maxRegisterNum) false flash2IsNew
    path false m

/-- The turns of that loop, stopped by the first that fails. -/
def loadWells (env : Platform) (flash2IsNew : Bool) : List Nat → MapT → Option Int × MapT
  | [], m => (some 0, m)
  | i :: is, m =>
    match loadWell env flash2IsNew i m with
    | (some 0, m') => loadWells env flash2IsNew is m'
    | r => r

/-- `ram_map_flash2_value_init`. -/
def ramMapFlash2ValueInit (env : Platform) (flash2IsNew : Bool) (m : MapT) : Option Int × MapT :=
  loadWells env flash2IsNew (List.range maxWellNum) m

/-- The table part of `map_init`: everything before the two `msync` calls. An
empty block size fails already in `mmap`. -/
def mapLoad (env : Platform) (flash1 flash2 : Option FlashFile) : Option Int × Option MapT :=
  match getXYZMaxLen env with
  | none => (some (-1), none)
  | some xMax =>
    if xMax = 0 then (some (-1), none)
    else
      let (flash1IsNew, f1) := flashOpen flash1MaxLen flash1
      let (flash2IsNew, f2) := flashOpen (xMax.toNat * maxWellNum) flash2
      match ramMapFlash1ValueInit env 0 0 flash1IsNew flash2IsNew pathMap1 true
          (emptyMap xMax.toNat f1 f2) with
      | (some 0, m) =>
        let r := ramMapFlash2ValueInit env flash2IsNew m
        (r.1, some r.2)
      | (rc, m) => (rc, some m)

/-- `map_init`: the map when it returns `0`. The call count is that of the
`msync` calls before. -/
def mapInit (env : Platform) (flash1 flash2 : Option FlashFile) (msyncs : Nat) : Option MapT :=
  match mapLoad env flash1 flash2 with
  | (some 0, some m) => if env.msync msyncs && env.msync (msyncs + 1) then some m else none
  | _ => none

/-! ### Run time -/

/-- `map_item_remap`. The well number is a `uint16_t`. -/
def mapItemRemap (env : Platform) (wellNum : Nat) (wellType : UInt16) (s : Rtu) :
    Option Int × Rtu :=
  if wellNum < 1 ∨ wellNum - 1 > maxWellNum then (some (-1), s)
  else
    match getMap00Path env wellType with
    | none => (some (-1), s)
    | some path =>
      let s := s.onMap (·.setFlash2 wellNum 0 wellType)
      match ramMapFlash1ValueInit env (s.map.xBase wellNum) (yBase wellNum) false true path false
          s.map with
      | (some 0, m) =>
        match (s.onMap fun _ => m).msync env with
        | (true, s) => (some 0, s)
        | (false, s) => (some (-1), s)
      | (rc, m) => (rc, s.onMap fun _ => m)

end RtuA118
