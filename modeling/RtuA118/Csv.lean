import Mathlib.Algebra.Ring.Nat
import RtuA118.Common

/-!
# RtuA118.Csv

The mapping files as the program reads them: `fscanf` of one blank-separated
word at a time, then `sscanf` and `strstr` on that word.

A row of a mapping file names one internal cell and one register
(`x0,y0,value,flags`) or a range of each (`x0~x1,y0~y1,value,flags`). The flags
are found by substring search anywhere in the row, so their order is free and
unknown ones are ignored.
-/

namespace RtuA118

/-! ### The C library's part -/

/-- `isspace` of the C locale. -/
def isSpace (c : Char) : Bool := c.toNat == 32 || (9 ≤ c.toNat && c.toNat ≤ 13)

/-- The words `fscanf(file, "%s\r", buf)` delivers until it returns `EOF`. -/
def scanWords (cs : List Char) : List (List Char) :=
  (cs.splitBy fun a b => isSpace a == isSpace b).filter fun w => !(w.any isSpace)

/-- `NULL != strstr(hay, needle)`. -/
def strstr (hay needle : List Char) : Bool := hay.tails.any fun t => needle.isPrefixOf t

/-- The value of a digit in the given base. -/
def digitVal (base : Nat) (c : Char) : Option Nat :=
  let n := c.toNat
  let v := if 48 ≤ n ∧ n ≤ 57 then n - 48
    else if 65 ≤ n ∧ n ≤ 70 then n - 55
    else if 97 ≤ n ∧ n ≤ 102 then n - 87
    else base
  if v < base then some v else none

/-- The longest run of digits: its value, how many there were, and the rest. -/
def scanDigits (base : Nat) : List Char → Nat → Nat → Nat × Nat × List Char
  | [], v, n => (v, n, [])
  | c :: cs, v, n =>
    match digitVal base c with
    | none => (v, n, c :: cs)
    | some d => scanDigits base cs (v * base + d) (n + 1)

/-- The optional sign of a conversion: whether it is a minus, and the rest. -/
def scanSign : List Char → Bool × List Char
  | '-' :: cs => (true, cs)
  | '+' :: cs => (false, cs)
  | cs => (false, cs)

/-- `%hd`: `strtol` saturates at a 32-bit `long`, the store keeps 16 bits. -/
def scanHd (cs : List Char) : Option (UInt16 × List Char) :=
  let (neg, cs) := scanSign cs
  match scanDigits 10 cs 0 0 with
  | (_, 0, _) => none
  | (v, _, rest) =>
    some (UInt16.ofInt (if neg then -(min v (2 ^ 31) : Nat) else (min v (2 ^ 31 - 1) : Nat)), rest)

/-- The optional `0x` of `%hx`: whether it is there, and the rest. -/
def scan0x : List Char → Bool × List Char
  | '0' :: 'x' :: cs => (true, cs)
  | '0' :: 'X' :: cs => (true, cs)
  | cs => (false, cs)

/-- `%hx`: `strtoul` saturates at a 32-bit `unsigned long`, the store keeps 16
bits. The zero of a `0x` prefix counts as a digit. -/
def scanHx (cs : List Char) : Option (UInt16 × List Char) :=
  let (neg, cs) := scanSign cs
  let (pre, cs) := scan0x cs
  match scanDigits 16 cs 0 (if pre then 1 else 0) with
  | (_, 0, _) => none
  | (v, _, rest) =>
    let u := min v (2 ^ 32 - 1)
    some (UInt16.ofInt (if neg then -(u : Int) else u), rest)

/-- A literal character of a `sscanf` format. -/
def scanLit (c : Char) : List Char → Option (List Char)
  | [] => none
  | d :: cs => if d = c then some cs else none

/-- The `short` that `%hd` prints for a word. -/
def hdValue (v : UInt16) : Int := if v.toNat < 32768 then v.toNat else (v.toNat : Int) - 65536

/-- `%0<width>hd`. -/
def printHd (width : Nat) (v : UInt16) : List Char :=
  if v.toNat < 32768 then (Nat.toDigits 10 v.toNat).leftpad width '0'
  else '-' :: (Nat.toDigits 10 (65536 - v.toNat)).leftpad (width - 1) '0'

/-- `%hx`. -/
def printHx (v : UInt16) : List Char := Nat.toDigits 16 v.toNat

/-! ### Rows of a mapping file -/

/-- The four kinds an internal cell can have, and the marks of the record and
read-write tables, in one enumeration as in the source. -/
inductive MapKind where
  | null
  | ram
  | flash1
  | flash2
  | sys
  | record
  | ro
  | rw
  deriving DecidableEq, Repr

/-- What the flags of a row say: `map_type`, `map_record`, `map_rw`. -/
structure RowFlags where
  mapType : MapKind
  mapRecord : MapKind
  mapRw : MapKind
  deriving DecidableEq, Repr

/-- The flag searches of one row. -/
def rowFlags (w : List Char) : RowFlags where
  mapType :=
    if strstr w "FLASH1".toList then .flash1
    else if strstr w "FLASH2".toList then .flash2
    else if strstr w "SYS".toList then .sys
    else .null
  mapRecord := if strstr w "RECORD".toList then .record else .null
  mapRw := if strstr w "WR".toList || strstr w "RW".toList then .rw else .ro

/-- A scanned row. -/
inductive Row where
  | single (x0 y0 dV : UInt16) (flags : RowFlags)
  | range (x0 x1 y0 y1 dV : UInt16) (flags : RowFlags)
  deriving DecidableEq, Repr

/-- The default value's conversion: `%hx` when the row contains `0x`. -/
def scanValue (w : List Char) (cs : List Char) : Option (UInt16 × List Char) :=
  if strstr w "0x".toList then scanHx cs else scanHd cs

/-- `sscanf` of one row and its flags; `none` where the field count is wrong. -/
def parseRow (w : List Char) : Option Row :=
  if strstr w ['~'] then do
    let (x0, cs) ← scanHd w
    let cs ← scanLit '~' cs
    let (x1, cs) ← scanHd cs
    let cs ← scanLit ',' cs
    let (y0, cs) ← scanHd cs
    let cs ← scanLit '~' cs
    let (y1, cs) ← scanHd cs
    let cs ← scanLit ',' cs
    let (dV, _) ← scanValue w cs
    return .range x0 x1 y0 y1 dV (rowFlags w)
  else do
    let (x0, cs) ← scanHd w
    let cs ← scanLit ',' cs
    let (y0, cs) ← scanHd cs
    let cs ← scanLit ',' cs
    let (dV, _) ← scanValue w cs
    return .single x0 y0 dV (rowFlags w)

/-- `y0 -= 40001`, or `0` for a number below the first register's. -/
def registerOfNumber (y : UInt16) : Nat := y.toNat - 40001

/-- One cell a row sets: cell index, register index, default and flags. -/
structure RowCell where
  x : UInt16
  y : UInt16
  dV : UInt16
  flags : RowFlags
  deriving DecidableEq, Repr

/-- The steps of `for(; i <= x1; ++i, ++j)` on 16-bit counters. -/
def rangeCells (dV : UInt16) (flags : RowFlags) (i j : UInt16) : Nat → List RowCell
  | 0 => []
  | n + 1 => ⟨i, j, dV, flags⟩ :: rangeCells dV flags (i + 1) (j + 1) n

namespace Row

/-- The loop over the row never ends: no 16-bit counter passes `65535`. -/
def endless : Row → Bool
  | .single .. => false
  | .range x0 x1 y0 y1 _ _ =>
    x1 == 65535 && decide (x0 < x1) && decide (registerOfNumber y0 < registerOfNumber y1)

/-- The cells a row sets, in order. A range that is empty or backwards sets
none; an endless one is given with one turn of its counters. -/
def cells : Row → List RowCell
  | .single x0 y0 dV flags => [⟨x0, UInt16.ofNat (registerOfNumber y0), dV, flags⟩]
  | .range x0 x1 y0 y1 dV flags =>
    if registerOfNumber y1 ≤ registerOfNumber y0 ∨ x1 ≤ x0 then []
    else rangeCells dV flags x0 (UInt16.ofNat (registerOfNumber y0))
      (if x1 = 65535 then 65536 else x1.toNat - x0.toNat + 1)

end Row

/-! ### Rows of the table of well types -/

/-- `sscanf(buf, "%hd,%s", &well_type, path)`. -/
def parseMap0 (w : List Char) : Option (UInt16 × List Char) := do
  let (t, cs) ← scanHd w
  let path ← scanLit ',' cs
  if path.isEmpty then none else some (t, path)

/-! ### Well-formed flags -/

/-- The loader never marks a cell with a kind of another table. -/
theorem rowFlags_mapType (w : List Char) :
    (rowFlags w).mapType = .null ∨ (rowFlags w).mapType = .flash1 ∨
      (rowFlags w).mapType = .flash2 ∨ (rowFlags w).mapType = .sys := by
  unfold rowFlags
  dsimp only
  split
  · simp
  · split
    · simp
    · split <;> simp

example : parseRow "3,40004,118,WR,FLASH1".toList
    = some (.single 3 40004 118 ⟨.flash1, .null, .rw⟩) := by decide

example : parseRow "94~98,40095~40099,-1,WR,FLASH1".toList
    = some (.range 94 98 40095 40099 65535 ⟨.flash1, .null, .rw⟩) := by decide

end RtuA118
