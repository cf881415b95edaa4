import Mathlib.Data.List.Basic

/-!
# RtuA118.Config.Json

The **parser of the configuration**, `cJSON_Parse`.

A pointer into the text is the list of the bytes from there on, with zeros behind it: the buffer of
the configuration is cleared before the file is read into it. What may go wrong is what the program
cannot see: a string is unescaped into a block that was measured in a pass of its own, and the two
passes do not always agree (`Parsed.overflow`). A number is kept as its sign, digits and
exponent; the `double` is what the arithmetic of C, which rounds, makes of these.
-/

namespace RtuA118

/-! ### Items -/

/-- `± n * 10 ^ exponent`. -/
structure JsonNumber where
  negative : Bool
  n : Nat
  exponent : Int
  deriving DecidableEq, Repr

/-- A `cJSON`: an array's items, and an object's with their names, are a chain behind `child`. -/
inductive JsonItem where
  | null
  | false
  | true
  | number (value : JsonNumber)
  | string (valuestring : List UInt8)
  | array (child : List JsonItem)
  | object (child : List (List UInt8 × JsonItem))

/-- What a parse function returns: an item and the pointer behind it, or 0; unless it has written
behind a block before. -/
inductive Parsed (α : Type) where
  | ok (value : α) (rest : List UInt8)
  | failed
  | overflow

namespace Parsed

variable {α β : Type}

def bind (p : Parsed α) (f : α → List UInt8 → Parsed β) : Parsed β :=
  match p with
  | ok v rest => f v rest
  | failed => failed
  | overflow => overflow

def map (f : α → β) (p : Parsed α) : Parsed β := p.bind fun v rest => ok (f v) rest

@[simp] theorem bind_ok (v : α) (rest : List UInt8) (f : α → List UInt8 → Parsed β) :
    (ok v rest).bind f = f v rest := rfl

@[simp] theorem map_ok (f : α → β) (v : α) (rest : List UInt8) :
    (ok v rest).map f = ok (f v) rest := rfl

end Parsed

/-- A character of the source. -/
def byte (c : Char) : UInt8 := UInt8.ofNat c.toNat

def bytes (cs : List Char) : List UInt8 := cs.map byte

/-- `*ptr`. -/
def peek (s : List UInt8) : UInt8 := s.headD 0

@[simp] theorem peek_cons (c : UInt8) (s : List UInt8) : peek (c :: s) = c := rfl

/-- `skip`. -/
def skip : List UInt8 → List UInt8
  | [] => []
  | c :: s => if c ≠ 0 ∧ c ≤ 32 then skip s else c :: s

/-! ### Numbers -/

def isDigit (c : UInt8) : Bool := byte '0' ≤ c ∧ c ≤ byte '9'

theorem isDigit_iff {c : UInt8} : isDigit c = true ↔ 48 ≤ c.toNat ∧ c.toNat ≤ 57 := by
  rw [isDigit, decide_eq_true_iff, UInt8.le_iff_toNat_le, UInt8.le_iff_toNat_le]
  rfl

/-- `n = n * 10 + (*num++ - '0')` over the digits: `n`, how many they are, and what follows. -/
def readDigits : Nat → List UInt8 → Nat × Nat × List UInt8
  | n, [] => (n, 0, [])
  | n, c :: s =>
    if isDigit c then
      let r := readDigits (n * 10 + (c.toNat - 48)) s
      (r.1, r.2.1 + 1, r.2.2)
    else (n, 0, c :: s)

/-- The steps of `parse_number`: the sign, -/
def parseSign (s : List UInt8) : Bool × List UInt8 :=
  if peek s = byte '-' then (.true, s.tail) else (.false, s)

/-- the digits before the point, of which a first 0 is on its own, -/
def parseWhole (s : List UInt8) : Nat × List UInt8 :=
  let s := if peek s = byte '0' then s.tail else s
  if byte '1' ≤ peek s ∧ peek s ≤ byte '9' then
    let r := readDigits 0 s
    (r.1, r.2.2)
  else (0, s)

/-- the digits behind it, if there are any, and how many, -/
def parsePlaces (n : Nat) (s : List UInt8) : Nat × Nat × List UInt8 :=
  if peek s = byte '.' ∧ isDigit (peek s.tail) then readDigits n s.tail else (n, 0, s)

/-- the sign of the exponent, -/
def parseExponentSign (s : List UInt8) : Bool × List UInt8 :=
  if peek s = byte '+' then (.false, s.tail)
  else if peek s = byte '-' then (.true, s.tail)
  else (.false, s)

/-- and `subscale * signsubscale`, an `int` that wraps. -/
def parseExponent (s : List UInt8) : Int × List UInt8 :=
  if peek s = byte 'e' ∨ peek s = byte 'E' then
    let (negative, s) := parseExponentSign s.tail
    let r := readDigits 0 s
    (Int.bmod (if negative then -(r.1 : Int) else r.1) 0x100000000, r.2.2)
  else (0, s)

/-- `parse_number`. -/
def parseNumber (s : List UInt8) : JsonNumber × List UInt8 :=
  let (negative, s) := parseSign s
  let (n, s) := parseWhole s
  let (n, places, s) := parsePlaces n s
  let (exponent, s) := parseExponent s
  (⟨negative, n, exponent - places⟩, s)

/-! ### Strings -/

def hexDigit (c : UInt8) : Option Nat :=
  if byte '0' ≤ c ∧ c ≤ byte '9' then some (c.toNat - 48)
  else if byte 'A' ≤ c ∧ c ≤ byte 'F' then some (10 + (c.toNat - 65))
  else if byte 'a' ≤ c ∧ c ≤ byte 'f' then some (10 + (c.toNat - 97))
  else none

/-- `parse_hex4`: 0 where there are no four digits. -/
def parseHex4 (s : List UInt8) : Nat :=
  match hexDigit (s.getD 0 0), hexDigit (s.getD 1 0), hexDigit (s.getD 2 0),
      hexDigit (s.getD 3 0) with
  | some a, some b, some c, some d => ((a * 16 + b) * 16 + c) * 16 + d
  | _, _, _, _ => 0

/-- `firstByteMark`. -/
def firstByteMark (len : Nat) : Nat := [0x00, 0x00, 0xC0, 0xE0, 0xF0, 0xF8, 0xFC].getD len 0

/-- The cases of `switch (len)`, from the last byte of the character to its first. -/
def fillUtf8 (len : Nat) : Nat → Nat → List UInt8 → List UInt8
  | 0, _, out => out
  | 1, uc, out => UInt8.ofNat (uc ||| firstByteMark len) :: out
  | k + 2, uc, out =>
    fillUtf8 len (k + 1) (uc >>> 6) (UInt8.ofNat ((uc ||| 0x80) &&& 0xBF) :: out)

/-- The UTF-8 of a code point. -/
def utf8Of (uc : Nat) : List UInt8 :=
  let len := if uc < 0x80 then 1 else if uc < 0x800 then 2 else if uc < 0x10000 then 3 else 4
  fillUtf8 len len uc []

/-- The escape `\u`, with the pointer at the `u`: what it writes, and the pointer behind. -/
def unescapeUnicode (s : List UInt8) : List UInt8 × List UInt8 :=
  let uc := parseHex4 s.tail
  let s := s.drop 4
  if (0xDC00 ≤ uc ∧ uc ≤ 0xDFFF) ∨ uc = 0 then ([], s.tail)
  else if 0xD800 ≤ uc ∧ uc ≤ 0xDBFF then
    if s.getD 1 0 ≠ byte '\\' ∨ s.getD 2 0 ≠ byte 'u' then ([], s.tail)
    else
      let uc2 := parseHex4 (s.drop 3)
      let s := s.drop 6
      if uc2 < 0xDC00 ∨ uc2 > 0xDFFF then ([], s.tail)
      else (utf8Of (0x10000 + (((uc &&& 0x3FF) <<< 10) ||| (uc2 &&& 0x3FF))), s.tail)
  else (utf8Of uc, s.tail)

/-- Any escape, with the pointer behind the backslash. -/
def unescapeOne (s : List UInt8) : List UInt8 × List UInt8 :=
  let c := peek s
  if c = byte 'b' then ([8], s.tail)
  else if c = byte 'f' then ([12], s.tail)
  else if c = byte 'n' then ([10], s.tail)
  else if c = byte 'r' then ([13], s.tail)
  else if c = byte 't' then ([9], s.tail)
  else if c = byte 'u' then unescapeUnicode s
  else ([c], s.tail)

theorem unescapeOne_length (s : List UInt8) : (unescapeOne s).2.length ≤ s.length := by
  unfold unescapeOne unescapeUnicode
  dsimp only
  split_ifs <;> simp only [List.length_tail, List.length_drop] <;> omega

/-- The loop of `parse_string` that writes: what it writes, and where it stops. -/
def unescape : List UInt8 → List UInt8 × List UInt8
  | [] => ([], [])
  | c :: s =>
    if c = byte '"' ∨ c = 0 then ([], c :: s)
    else if c ≠ byte '\\' then
      let r := unescape s
      (c :: r.1, r.2)
    else
      let e := unescapeOne s
      let r := unescape e.2
      (e.1 ++ r.1, r.2)
termination_by s => s.length
decreasing_by
  · simp
  · exact Nat.lt_succ_of_le (unescapeOne_length s)

/-- The loop before it, which measures. -/
def stringLen : List UInt8 → Nat
  | [] => 0
  | [c] => if c = byte '"' ∨ c = 0 then 0 else 1
  | c :: d :: s =>
    if c = byte '"' ∨ c = 0 then 0
    else if c = byte '\\' then stringLen s + 1
    else stringLen (d :: s) + 1

/-- `parse_string`. The block takes `stringLen` bytes and the zero. -/
def parseString (s : List UInt8) : Parsed (List UInt8) :=
  if peek s ≠ byte '"' then .failed
  else
    let (out, rest) := unescape s.tail
    if stringLen s.tail < out.length then .overflow
    else .ok out (if peek rest = byte '"' then rest.tail else rest)

/-! ### Values -/

/-- `!strncmp(value, word, strlen(word))`. -/
def startsWith (word : List UInt8) (s : List UInt8) : Bool := word.isPrefixOf s

mutual

/-- `parse_value`, with the calls that are left for what is inside. -/
def parseValue : Nat → List UInt8 → Parsed JsonItem
  | 0, _ => .failed
  | depth + 1, s =>
    if startsWith (bytes ['n', 'u', 'l', 'l']) s then .ok .null (s.drop 4)
    else if startsWith (bytes ['f', 'a', 'l', 's', 'e']) s then .ok .false (s.drop 5)
    else if startsWith (bytes ['t', 'r', 'u', 'e']) s then .ok .true (s.drop 4)
    else if peek s = byte '"' then (parseString s).map .string
    else if peek s = byte '-' ∨ isDigit (peek s) then
      .ok (.number (parseNumber s).1) (parseNumber s).2
    else if peek s = byte '[' then
      let s := skip s.tail
      if peek s = byte ']' then .ok (.array []) s.tail else (parseItems depth s).map .array
    else if peek s = byte '{' then
      let s := skip s.tail
      if peek s = byte '}' then .ok (.object []) s.tail else (parseFields depth s).map .object
    else .failed

/-- The loop of `parse_array`, from an item on. -/
def parseItems : Nat → List UInt8 → Parsed (List JsonItem)
  | 0, _ => .failed
  | depth + 1, s =>
    (parseValue depth (skip s)).bind fun v s =>
      let s := skip s
      if peek s = byte ',' then (parseItems depth s.tail).map (v :: ·)
      else if peek s = byte ']' then .ok [v] s.tail
      else .failed

/-- The loop of `parse_object`, from a name on. -/
def parseFields : Nat → List UInt8 → Parsed (List (List UInt8 × JsonItem))
  | 0, _ => .failed
  | depth + 1, s =>
    (parseString (skip s)).bind fun name s =>
      let s := skip s
      if peek s = byte ':' then
        (parseValue depth (skip s.tail)).bind fun v s =>
          let s := skip s
          if peek s = byte ',' then (parseFields depth s.tail).map ((name, v) :: ·)
          else if peek s = byte '}' then .ok [(name, v)] s.tail
          else .failed
      else .failed

end

/-- `cJSON_Parse`. Each call inside another is behind a byte more. -/
def cJSONParse (s : List UInt8) : Parsed JsonItem := parseValue (2 * s.length) (skip s)

end RtuA118
