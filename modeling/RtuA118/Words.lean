import RtuA118.Common
import RtuA118.Lib.Endian

/-!
# RtuA118.Words

The words of 32 and 64 bits of `common/common.c`.

A packed structure laid over registers sees a wide word as its registers in memory
order, the lowest first. `swap_register32` and `swap_register64` turn its registers
around, `swap_int32` and `swap_int64` its bytes; here they are the shifts and masks of
the source, and their effect on registers and bytes is a theorem about lanes.
-/

namespace RtuA118

open Endian

/-! ### Wide words in memory -/

/-- The `u32` over two registers in memory. -/
def u32OfWords (w0 w1 : UInt16) : UInt32 := UInt32.ofNat (ofLanes 16 [w0.toNat, w1.toNat])

/-- The `u64` over four registers in memory. -/
def u64OfWords (w0 w1 w2 w3 : UInt16) : UInt64 :=
  UInt64.ofNat (ofLanes 16 [w0.toNat, w1.toNat, w2.toNat, w3.toNat])

/-- The bytes of a `u32` in memory. -/
def bytesOfU32 (n : UInt32) : List UInt8 := (lanes 8 4 n.toNat).map UInt8.ofNat

/-- The bytes of a `u64` in memory. -/
def bytesOfU64 (n : UInt64) : List UInt8 := (lanes 8 8 n.toNat).map UInt8.ofNat

@[simp] theorem bytesOfU32_length (n : UInt32) : (bytesOfU32 n).length = 4 := by
  simp [bytesOfU32]

@[simp] theorem bytesOfU64_length (n : UInt64) : (bytesOfU64 n).length = 8 := by
  simp [bytesOfU64]

/-- Registers as lanes. -/
theorem words_lt (ws : List UInt16) : ∀ a ∈ ws.map UInt16.toNat, a < 2 ^ 16 := by
  intro a ha
  obtain ⟨w, -, rfl⟩ := List.mem_map.1 ha
  exact w.toNat_lt

theorem toNat_u32OfWords (w0 w1 : UInt16) :
    (u32OfWords w0 w1).toNat = ofLanes 16 [w0.toNat, w1.toNat] := by
  have hlt : ofLanes 16 [w0.toNat, w1.toNat] < 2 ^ 32 := ofLanes_lt (words_lt [w0, w1])
  exact UInt32.toNat_ofNat_of_lt' hlt

theorem toNat_u64OfWords (w0 w1 w2 w3 : UInt16) :
    (u64OfWords w0 w1 w2 w3).toNat = ofLanes 16 [w0.toNat, w1.toNat, w2.toNat, w3.toNat] := by
  have hlt : ofLanes 16 [w0.toNat, w1.toNat, w2.toNat, w3.toNat] < 2 ^ 64 :=
    ofLanes_lt (words_lt [w0, w1, w2, w3])
  exact UInt64.toNat_ofNat_of_lt' hlt

/-- The bytes of registers that lie one after the other. -/
theorem lanes_words (ws : List UInt16) :
    (lanes 8 (2 * ws.length) (ofLanes 16 (ws.map UInt16.toNat))).map UInt8.ofNat
      = bytesOfWords ws := by
  have h := lanes_ofLanes_double (w := 8) (words_lt ws)
  rw [List.length_map] at h
  rw [h, bytesOfWords, List.map_flatMap, List.flatMap_map]
  rfl

theorem bytesOfU32_u32OfWords (w0 w1 : UInt16) :
    bytesOfU32 (u32OfWords w0 w1) = bytesOfWords [w0, w1] := by
  rw [bytesOfU32, toNat_u32OfWords]
  exact lanes_words [w0, w1]

theorem bytesOfU64_u64OfWords (w0 w1 w2 w3 : UInt16) :
    bytesOfU64 (u64OfWords w0 w1 w2 w3) = bytesOfWords [w0, w1, w2, w3] := by
  rw [bytesOfU64, toNat_u64OfWords]
  exact lanes_words [w0, w1, w2, w3]

/-- A `u32` widened. -/
theorem bytesOfU64_toUInt64 (n : UInt32) :
    bytesOfU64 n.toUInt64 = bytesOfU32 n ++ [0, 0, 0, 0] := by
  have h := n.toNat_lt
  have hzero : n.toNat / 256 / 256 / 256 / 256 = 0 := by omega
  simp [bytesOfU64, bytesOfU32, lanes, hzero]

/-! ### The exchanges -/

/-- `swap_register32`. -/
def swapRegister32 (var : UInt32) : UInt32 :=
  let tmp1 := (var >>> (16 : UInt32)) &&& 0x0000FFFF
  let tmp2 := (var <<< (16 : UInt32)) &&& 0xFFFF0000
  tmp1 ||| tmp2

/-- `swap_register64`. -/
def swapRegister64 (var : UInt64) : UInt64 :=
  let tmp1 := (var >>> (48 : UInt64)) &&& 0x000000000000FFFF
  let tmp2 := (var >>> (16 : UInt64)) &&& 0x00000000FFFF0000
  let tmp3 := (var <<< (16 : UInt64)) &&& 0x0000FFFF00000000
  let tmp4 := (var <<< (48 : UInt64)) &&& 0xFFFF000000000000
  tmp1 ||| tmp2 ||| tmp3 ||| tmp4

/-- `swap_int32`. -/
def swapInt32 (n : UInt32) : UInt32 :=
  let temp1 := (n >>> (24 : UInt32)) &&& 0x000000FF
  let temp2 := (n >>> (8 : UInt32)) &&& 0x0000FF00
  let temp3 := (n <<< (8 : UInt32)) &&& 0x00FF0000
  let temp4 := (n <<< (24 : UInt32)) &&& 0xFF000000
  temp1 ||| temp2 ||| temp3 ||| temp4

/-- `swap_int64`. -/
def swapInt64 (n : UInt64) : UInt64 :=
  let temp1 := (n >>> (56 : UInt64)) &&& 0x00000000000000FF
  let temp2 := (n >>> (40 : UInt64)) &&& 0x000000000000FF00
  let temp3 := (n >>> (24 : UInt64)) &&& 0x0000000000FF0000
  let temp4 := (n >>> (8 : UInt64)) &&& 0x00000000FF000000
  let temp5 := (n <<< (8 : UInt64)) &&& 0x000000FF00000000
  let temp6 := (n <<< (24 : UInt64)) &&& 0x0000FF0000000000
  let temp7 := (n <<< (40 : UInt64)) &&& 0x00FF000000000000
  let temp8 := (n <<< (56 : UInt64)) &&& 0xFF00000000000000
  temp1 ||| temp2 ||| temp3 ||| temp4 ||| temp5 ||| temp6 ||| temp7 ||| temp8

/-! ### What they exchange -/

/-- Lanes picked out of a number, joined. -/
theorem join_lane {w : Nat} (v i : Nat) (is : List Nat) :
    join w (lane w i v) 1 (is.map fun k => lane w k v)
      = ofLanes w ((i :: is).map fun k => lane w k v) := by
  have hlt : ∀ a ∈ (i :: is).map (fun k => lane w k v), a < 2 ^ w := by
    intro a ha
    obtain ⟨k, -, rfl⟩ := List.mem_map.1 ha
    exact lane_lt k v
  exact join_eq hlt

theorem toNat_swapRegister32 (var : UInt32) :
    (swapRegister32 var).toNat = ofLanes 16 (lanes 16 2 var.toNat).reverse := by
  have h1 := shiftRight_and_mask (w := 16) 1 0 var.toNat
  have h2 := shiftLeft_and_mask (w := 16) (k := 1) (j := 0) (n := 2) var.toNat (by decide)
  rw [lanes_eq_map]
  refine Eq.trans ?_ (join_lane var.toNat 1 [0])
  simp [swapRegister32, join, -lane_zero] at h1 h2 ⊢
  rw [h1, h2]

theorem toNat_swapRegister64 (var : UInt64) :
    (swapRegister64 var).toNat = ofLanes 16 (lanes 16 4 var.toNat).reverse := by
  have h1 := shiftRight_and_mask (w := 16) 3 0 var.toNat
  have h2 := shiftRight_and_mask (w := 16) 1 1 var.toNat
  have h3 := shiftLeft_and_mask (w := 16) (k := 1) (j := 1) (n := 4) var.toNat (by decide)
  have h4 := shiftLeft_and_mask (w := 16) (k := 3) (j := 0) (n := 4) var.toNat (by decide)
  rw [lanes_eq_map]
  refine Eq.trans ?_ (join_lane var.toNat 3 [2, 1, 0])
  simp [swapRegister64, join, -lane_zero] at h1 h2 h3 h4 ⊢
  rw [h1, h2, h3, h4]

theorem toNat_swapInt32 (n : UInt32) :
    (swapInt32 n).toNat = ofLanes 8 (lanes 8 4 n.toNat).reverse := by
  have h1 := shiftRight_and_mask (w := 8) 3 0 n.toNat
  have h2 := shiftRight_and_mask (w := 8) 1 1 n.toNat
  have h3 := shiftLeft_and_mask (w := 8) (k := 1) (j := 1) (n := 4) n.toNat (by decide)
  have h4 := shiftLeft_and_mask (w := 8) (k := 3) (j := 0) (n := 4) n.toNat (by decide)
  rw [lanes_eq_map]
  refine Eq.trans ?_ (join_lane n.toNat 3 [2, 1, 0])
  simp [swapInt32, join, -lane_zero] at h1 h2 h3 h4 ⊢
  rw [h1, h2, h3, h4]

theorem toNat_swapInt64 (n : UInt64) :
    (swapInt64 n).toNat = ofLanes 8 (lanes 8 8 n.toNat).reverse := by
  have h1 := shiftRight_and_mask (w := 8) 7 0 n.toNat
  have h2 := shiftRight_and_mask (w := 8) 5 1 n.toNat
  have h3 := shiftRight_and_mask (w := 8) 3 2 n.toNat
  have h4 := shiftRight_and_mask (w := 8) 1 3 n.toNat
  have h5 := shiftLeft_and_mask (w := 8) (k := 1) (j := 3) (n := 8) n.toNat (by decide)
  have h6 := shiftLeft_and_mask (w := 8) (k := 3) (j := 2) (n := 8) n.toNat (by decide)
  have h7 := shiftLeft_and_mask (w := 8) (k := 5) (j := 1) (n := 8) n.toNat (by decide)
  have h8 := shiftLeft_and_mask (w := 8) (k := 7) (j := 0) (n := 8) n.toNat (by decide)
  rw [lanes_eq_map]
  refine Eq.trans ?_ (join_lane n.toNat 7 [6, 5, 4, 3, 2, 1, 0])
  simp [swapInt64, join, -lane_zero] at h1 h2 h3 h4 h5 h6 h7 h8 ⊢
  rw [h1, h2, h3, h4, h5, h6, h7, h8]

/-! ### In memory -/

/-- A word with its lanes turned around has them turned around in memory. -/
theorem lanes_of_reverse {w n m v : Nat} (h : m = ofLanes w (lanes w n v).reverse) :
    lanes w n m = (lanes w n v).reverse := by
  have hlt : ∀ a ∈ (lanes w n v).reverse, a < 2 ^ w :=
    fun a ha => lt_of_mem_lanes (List.mem_reverse.1 ha)
  have hrev := lanes_ofLanes hlt
  rw [List.length_reverse, lanes_length] at hrev
  rw [h, hrev]

theorem bytesOfU32_swapInt32 (n : UInt32) :
    bytesOfU32 (swapInt32 n) = (bytesOfU32 n).reverse := by
  rw [bytesOfU32, lanes_of_reverse (toNat_swapInt32 n), bytesOfU32, List.map_reverse]

theorem bytesOfU64_swapInt64 (n : UInt64) :
    bytesOfU64 (swapInt64 n) = (bytesOfU64 n).reverse := by
  rw [bytesOfU64, lanes_of_reverse (toNat_swapInt64 n), bytesOfU64, List.map_reverse]

theorem swapRegister32_u32OfWords (w0 w1 : UInt16) :
    swapRegister32 (u32OfWords w0 w1) = u32OfWords w1 w0 := by
  apply UInt32.toNat_inj.1
  have hlanes := lanes_ofLanes (words_lt [w0, w1])
  rw [toNat_swapRegister32, toNat_u32OfWords, toNat_u32OfWords]
  exact congrArg (fun as => ofLanes 16 as.reverse) hlanes

theorem swapRegister64_u64OfWords (w0 w1 w2 w3 : UInt16) :
    swapRegister64 (u64OfWords w0 w1 w2 w3) = u64OfWords w3 w2 w1 w0 := by
  apply UInt64.toNat_inj.1
  have hlanes := lanes_ofLanes (words_lt [w0, w1, w2, w3])
  rw [toNat_swapRegister64, toNat_u64OfWords, toNat_u64OfWords]
  exact congrArg (fun as => ofLanes 16 as.reverse) hlanes

end RtuA118
