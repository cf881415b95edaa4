import Mathlib.Data.List.Basic

/-!
# RtuA118.Common

`common/common.c` and the machine words of the program.

A 16-bit word lives in memory low byte first (the unit is little-endian), so
`wordOfBytes b0 b1` is the `uint16_t` whose bytes in memory are `b0`, `b1`. A
`float` is only ever copied and shuffled as four bytes, so it is a structure of
its four bytes in memory order.
-/

namespace RtuA118

/-! ### Words and their bytes -/

/-- The `uint16_t` whose two bytes in memory are `b0`, then `b1`. -/
def wordOfBytes (b0 b1 : UInt8) : UInt16 := UInt16.ofNat (b0.toNat + 256 * b1.toNat)

/-- `v & 0xFF` as a byte: the first byte of `v` in memory. -/
def loByte (v : UInt16) : UInt8 := UInt8.ofNat (v.toNat % 256)

/-- `v >> 8` as a byte: the second byte of `v` in memory. -/
def hiByte (v : UInt16) : UInt8 := UInt8.ofNat (v.toNat / 256)

@[simp] theorem toNat_wordOfBytes (b0 b1 : UInt8) :
    (wordOfBytes b0 b1).toNat = b0.toNat + 256 * b1.toNat := by
  have h0 := b0.toNat_lt
  have h1 := b1.toNat_lt
  unfold wordOfBytes
  rw [UInt16.toNat_ofNat']
  omega

@[simp] theorem toNat_loByte (v : UInt16) : (loByte v).toNat = v.toNat % 256 := by
  unfold loByte
  rw [UInt8.toNat_ofNat']
  omega

@[simp] theorem toNat_hiByte (v : UInt16) : (hiByte v).toNat = v.toNat / 256 := by
  have h := v.toNat_lt
  unfold hiByte
  rw [UInt8.toNat_ofNat']
  omega

@[simp] theorem loByte_wordOfBytes (b0 b1 : UInt8) : loByte (wordOfBytes b0 b1) = b0 := by
  have h0 := b0.toNat_lt
  apply UInt8.toNat_inj.mp
  rw [toNat_loByte, toNat_wordOfBytes]
  omega

@[simp] theorem hiByte_wordOfBytes (b0 b1 : UInt8) : hiByte (wordOfBytes b0 b1) = b1 := by
  have h0 := b0.toNat_lt
  apply UInt8.toNat_inj.mp
  rw [toNat_hiByte, toNat_wordOfBytes]
  omega

@[simp] theorem wordOfBytes_loByte_hiByte (v : UInt16) : wordOfBytes (loByte v) (hiByte v) = v := by
  apply UInt16.toNat_inj.mp
  rw [toNat_wordOfBytes, toNat_loByte, toNat_hiByte]
  omega

theorem wordOfBytes_inj {a b c d : UInt8} :
    wordOfBytes a b = wordOfBytes c d ↔ a = c ∧ b = d := by
  constructor
  · intro h
    exact ⟨by simpa using congrArg loByte h, by simpa using congrArg hiByte h⟩
  · rintro ⟨rfl, rfl⟩
    rfl

/-- The bytes of the words in memory order. -/
def bytesOfWords (ws : List UInt16) : List UInt8 := ws.flatMap fun w => [loByte w, hiByte w]

@[simp] theorem bytesOfWords_nil : bytesOfWords [] = [] := rfl

@[simp] theorem bytesOfWords_cons (w : UInt16) (ws : List UInt16) :
    bytesOfWords (w :: ws) = loByte w :: hiByte w :: bytesOfWords ws := rfl

@[simp] theorem bytesOfWords_length (ws : List UInt16) :
    (bytesOfWords ws).length = 2 * ws.length := by
  induction ws with
  | nil => rfl
  | cons w ws ih =>
      simp only [bytesOfWords_cons, List.length_cons, ih]
      omega

/-- The bytes of words, in twos. -/
theorem bytesOfWords_getD : ∀ {ws : List UInt16} {k : Nat}, k < ws.length →
    (bytesOfWords ws).getD (2 * k) 0 = loByte (ws.getD k 0) ∧
      (bytesOfWords ws).getD (2 * k + 1) 0 = hiByte (ws.getD k 0) := by
  intro ws
  induction ws with
  | nil => intro k hk; exact absurd hk (Nat.not_lt_zero k)
  | cons v ws ih =>
      intro k hk
      cases k with
      | zero => exact ⟨rfl, rfl⟩
      | succ k => exact ih (Nat.lt_of_succ_lt_succ hk)

/-- `swap_int16`: the two bytes exchanged. -/
def swapInt16 (n : UInt16) : UInt16 := wordOfBytes (hiByte n) (loByte n)

@[simp] theorem swapInt16_swapInt16 (n : UInt16) : swapInt16 (swapInt16 n) = n := by
  simp [swapInt16]

@[simp] theorem swapInt16_wordOfBytes (a b : UInt8) :
    swapInt16 (wordOfBytes a b) = wordOfBytes b a := by
  simp [swapInt16]

/-! ### Floats as bytes -/

/-- A `float`: its four bytes in memory order. -/
structure Fp32 where
  b0 : UInt8
  b1 : UInt8
  b2 : UInt8
  b3 : UInt8
  deriving DecidableEq, Repr, Inhabited

namespace Fp32

/-- The two `uint16_t` words a `(u16 *)` pointer to the float sees. -/
def words (f : Fp32) : List UInt16 := [wordOfBytes f.b0 f.b1, wordOfBytes f.b2 f.b3]

/-- The bytes in memory order. -/
def bytes (f : Fp32) : List UInt8 := [f.b0, f.b1, f.b2, f.b3]

@[simp] theorem words_length (f : Fp32) : f.words.length = 2 := rfl

end Fp32

/-- `swap_rcv_float_seq`: byte order 1234 to 4321. -/
def swapRcvFloatSeq (f : Fp32) : Fp32 := ⟨f.b3, f.b2, f.b1, f.b0⟩

/-- `swap_stor_float_seq`: byte order 4321 to 2143. -/
def swapStorFloatSeq (f : Fp32) : Fp32 := ⟨f.b2, f.b3, f.b0, f.b1⟩

/-! ### BCD -/

/-- `int16_to_bcd`: four decimal digits as nibbles; `0` above `9999`. -/
def int16ToBcd (n : UInt16) : UInt16 :=
  if n.toNat > 9999 then 0
  else UInt16.ofNat (n.toNat / 1000 * 4096 + n.toNat / 100 % 10 * 256
    + n.toNat % 100 / 10 * 16 + n.toNat % 10)

/-- `bcd_to_int8`. The result is a `uint8`. -/
def bcdToInt8 (bcd : UInt8) : UInt8 := UInt8.ofNat (bcd.toNat / 16 * 10 + bcd.toNat % 16)

/-- `bcd_to_int16`. -/
def bcdToInt16 (bcd : UInt16) : UInt16 :=
  UInt16.ofNat ((bcdToInt8 (hiByte bcd)).toNat * 100 + (bcdToInt8 (loByte bcd)).toNat)

end RtuA118
