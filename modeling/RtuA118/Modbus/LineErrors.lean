import RtuA118.Lib.ErrorDetection
import RtuA118.Tools.Crc

/-!
# RtuA118.Modbus.LineErrors

**Errors on the RS-485 line.**

The CRC of a frame is right exactly when the CRC of the whole frame, its own CRC included, is zero
(`checkIntegrity_iff_crc16`). As the CRC is linear, whether a damaged frame is accepted depends on
the wrong bits alone, and on no frame of this protocol are an odd number of them, two of them or a
burst of sixteen bits taken for a frame.
-/

namespace RtuA118

open Crc (shiftStep bitsOf Detectable)

/-! ### A frame as a number -/

/-- The bits of a frame in the order in which they are sent. -/
def lineMessage (frame : List UInt8) : Nat := Crc.message 8 (frame.map UInt8.toNat)

/-- The bit of a frame that is sent in place `i`. -/
def lineBit (frame : List UInt8) (i : Nat) : Bool := (frame.getD (i / 8) 0).toNat.testBit (i % 8)

/-- The places in which one frame differs from another. -/
def wrongBits (f g : List UInt8) : List Nat :=
  (List.range (8 * f.length)).filter fun i => lineBit f i != lineBit g i

theorem bytes_lt (frame : List UInt8) : ∀ b ∈ frame.map UInt8.toNat, b < 2 ^ 8 := by
  intro b hb
  obtain ⟨v, -, rfl⟩ := List.mem_map.1 hb
  exact v.toNat_lt

theorem testBit_lineMessage (frame : List UInt8) (i : Nat) :
    (lineMessage frame).testBit i = lineBit frame i := by
  rw [lineMessage, Crc.testBit_message (by decide) (bytes_lt frame), lineBit]
  congr 1
  exact List.getD_map _ 0 UInt8.toNat

theorem lineMessage_lt (frame : List UInt8) : lineMessage frame < 2 ^ (8 * frame.length) := by
  have h := Crc.message_lt (bytes_lt frame)
  rwa [List.length_map] at h

theorem bitsOf_lineMessage (f g : List UInt8) :
    bitsOf (8 * f.length) (lineMessage f ^^^ lineMessage g) = wrongBits f g := by
  refine List.filter_congr fun i _ => ?_
  rw [Nat.testBit_xor, testBit_lineMessage, testBit_lineMessage]

/-- The registers after a frame are what its bits make of the starting value. -/
theorem registerOf_crc16_line (frame : List UInt8) :
    registerOf (crc16 frame) =
      (shiftStep 0xA001)^[8 * frame.length] (0xFFFF ^^^ lineMessage frame) := by
  have hbits : registerOf (crc16 frame) =
      (frame.map UInt8.toNat).foldl (Crc.bitwiseStep 0xA001 8) 0xFFFF := by
    rw [Crc.foldl_tableStep crcTable_eq (bytes_lt frame), List.foldl_map]
    exact registerOf_foldl frame (0xFF, 0xFF)
  rw [hbits, Crc.foldl_bitwiseStep, List.length_map, lineMessage]

/-! ### The check -/

theorem registerOf_inj {a b : UInt8 × UInt8} (h : registerOf a = registerOf b) : a = b := by
  have hlow := congrArg (· % 2 ^ 8) h
  have hhigh := congrArg (· >>> 8) h
  simp only [registerOf_mod, registerOf_shiftRight] at hlow hhigh
  exact Prod.ext (UInt8.toNat_inj.1 hlow) (UInt8.toNat_inj.1 hhigh)

theorem registerOf_lt (a : UInt8 × UInt8) : registerOf a < 2 ^ 16 := by
  refine Nat.xor_lt_two_pow ?_ (a.1.toNat_lt.trans (by decide))
  rw [Nat.shiftLeft_eq, show (2 : Nat) ^ 16 = 2 ^ 8 * 2 ^ 8 from rfl]
  exact Nat.mul_lt_mul_of_pos_right a.2.toNat_lt (by decide)

theorem shiftStep_iterate_eq_zero_iff (n : Nat) {a : Nat} (ha : a < 2 ^ 16) :
    (shiftStep 0xA001)^[n] a = 0 ↔ a = 0 := by
  constructor
  · intro h
    by_contra hne
    exact Crc.shiftStep_iterate_ne_zero (w := 16) (by decide) (by decide) (by decide) n ha hne h
  · rintro rfl
    exact Function.iterate_fixed rfl n

/-- Two bytes bring the registers to zero exactly when they are in them. -/
theorem crc16_append_eq_zero_iff (body : List UInt8) (c0 c1 : UInt8) :
    crc16 (body ++ [c0, c1]) = (0, 0) ↔ crc16 body = (c0, c1) := by
  have hreg : registerOf (crc16 (body ++ [c0, c1])) =
      (shiftStep 0xA001)^[16] (registerOf (crc16 body) ^^^ registerOf (c0, c1)) := by
    have hfold : registerOf (crc16 (body ++ [c0, c1])) =
        ([c0, c1].map UInt8.toNat).foldl (Crc.bitwiseStep 0xA001 8) (registerOf (crc16 body)) := by
      rw [Crc.foldl_tableStep crcTable_eq (bytes_lt _), List.foldl_map, crc16, List.foldl_append]
      exact registerOf_foldl [c0, c1] (crc16 body)
    have hmsg : Crc.message 8 ([c0, c1].map UInt8.toNat) = registerOf (c0, c1) := by
      simp [Crc.message, registerOf, Nat.xor_comm]
    rw [hfold, Crc.foldl_bitwiseStep, hmsg]
    rfl
  constructor
  · intro h
    have hzero : (shiftStep 0xA001)^[16] (registerOf (crc16 body) ^^^ registerOf (c0, c1)) = 0 := by
      rw [← hreg, h]
      rfl
    rw [shiftStep_iterate_eq_zero_iff 16 (Nat.xor_lt_two_pow (registerOf_lt _) (registerOf_lt _)),
      Nat.xor_eq_zero_iff] at hzero
    exact registerOf_inj hzero
  · intro h
    refine registerOf_inj ?_
    rw [hreg, h, Nat.xor_self]
    exact Function.iterate_fixed rfl 16

/-- **The whole frame's CRC** is zero when its CRC is right. -/
theorem checkIntegrity_iff_crc16 {frame : List UInt8} (hlen : 2 ≤ frame.length) :
    Backend.rtu.checkIntegrity frame = true ↔ crc16 frame = (0, 0) := by
  obtain ⟨n, hn⟩ : ∃ n, frame.length = n + 2 := ⟨frame.length - 2, by omega⟩
  have hsplit : frame = frame.take n ++ [frame.getD n 0, frame.getD (n + 1) 0] := by
    have hdrop : frame.drop n = [frame.getD n 0, frame.getD (n + 1) 0] := by
      rw [List.drop_eq_getElem_cons (by omega), List.drop_eq_getElem_cons (by omega),
        List.drop_eq_nil_of_le (by omega), List.getD_eq_getElem _ _ (by omega),
        List.getD_eq_getElem _ _ (by omega)]
    rw [← hdrop, List.take_append_drop]
  have hcheck : Backend.rtu.checkIntegrity frame = true ↔
      crc16 (frame.take n) = (frame.getD n 0, frame.getD (n + 1) 0) := by
    simp [Backend.checkIntegrity, hn]
  rw [hcheck, ← crc16_append_eq_zero_iff, ← hsplit]

/-! ### Parts of frames -/

namespace FrameRule

variable (r : FrameRule) (stream : List UInt8) {n : Nat}

/-- The bytes up to the head's end say how long the frame is. -/
theorem frameLength_take_of_head (h : r.headLength (stream.take n) ≤ n) :
    r.frameLength (stream.take n) = r.frameLength stream := by
  have hfirst : r.firstLength ≤ n := (Nat.le_add_right _ _).trans h
  have hmiddle : r.middleLength (stream.take n) = r.middleLength stream := by
    rw [middleLength, middleLength, List.take_take, Nat.min_eq_left hfirst]
  have hhead : r.headLength (stream.take n) = r.headLength stream := by
    rw [headLength, headLength, hmiddle]
  rw [frameLength, frameLength, hhead, List.take_take, Nat.min_eq_left (hhead ▸ h)]

theorem headLength_take (h : r.headLength stream ≤ n) :
    r.headLength (stream.take n) = r.headLength stream := by
  have hfirst : r.firstLength ≤ n := (Nat.le_add_right _ _).trans h
  rw [headLength, headLength, middleLength, middleLength, List.take_take, Nat.min_eq_left hfirst]

theorem frameLength_take (h : r.frameLength stream ≤ n) :
    r.frameLength (stream.take n) = r.frameLength stream := by
  have hhead : r.headLength stream ≤ n := (Nat.le_add_right _ _).trans h
  exact r.frameLength_take_of_head stream (by rwa [r.headLength_take stream hhead])

/-- Part of a frame is no frame. -/
theorem cut_take_eq_none (h : n < r.frameLength stream) : r.cut (stream.take n) = none := by
  have hlen : (stream.take n).length ≤ n := List.length_take_le n stream
  unfold cut
  by_cases hhead : (stream.take n).length < r.headLength (stream.take n)
  · rw [if_pos hhead]
  · -- the head has arrived, and asks for more than there is
    have hsize := r.frameLength_take_of_head stream ((Nat.le_of_not_lt hhead).trans hlen)
    rw [if_neg hhead]
    split
    · rfl
    · rw [if_pos (by omega)]

end FrameRule

/-! ### Damaged frames -/

/-- Whether a damaged frame passes depends on its wrong bits alone. -/
theorem checkIntegrity_damaged_iff {f g : List UInt8} (hf : Backend.rtu.checkIntegrity f = true)
    (hlen : 2 ≤ f.length) (hfg : g.length = f.length) :
    Backend.rtu.checkIntegrity g = true ↔
      (shiftStep 0xA001)^[8 * f.length] (lineMessage f ^^^ lineMessage g) = 0 := by
  have hzero : registerOf (crc16 f) = 0 := by
    rw [(checkIntegrity_iff_crc16 hlen).1 hf]
    rfl
  have hdiff : registerOf (crc16 g) =
      (shiftStep 0xA001)^[8 * f.length] (lineMessage f ^^^ lineMessage g) := by
    calc
      registerOf (crc16 g) = registerOf (crc16 f) ^^^ registerOf (crc16 g) := by
        rw [hzero, Nat.zero_xor]
      _ = (shiftStep 0xA001)^[8 * f.length]
            (0xFFFF ^^^ lineMessage f ^^^ (0xFFFF ^^^ lineMessage g)) := by
        rw [registerOf_crc16_line, registerOf_crc16_line, hfg, ← Crc.shiftStep_iterate_xor]
      _ = _ := by
        rw [Nat.xor_comm 0xFFFF (lineMessage f), Nat.xor_assoc, ← Nat.xor_assoc 0xFFFF,
          Nat.xor_self, Nat.zero_xor]
  rw [checkIntegrity_iff_crc16 (hfg ▸ hlen), ← hdiff]
  constructor
  · intro h
    rw [h]
    rfl
  · intro h
    exact registerOf_inj h

/-- Within a frame, the register does not come back to a single bit. -/
theorem shiftStep_iterate_ne_one {d : Nat} (hd : 0 < d) (h : d < 2048) :
    (shiftStep 0xA001)^[d] 1 ≠ 1 := by
  have hall : Crc.avoids (shiftStep 0xA001) 1 2047 1 = true := by decide +kernel
  exact Crc.avoids_iterate hall hd (by omega)

theorem checkIntegrity_damaged {f g : List UInt8} (hf : Backend.rtu.checkIntegrity f = true)
    (hlen : 2 ≤ f.length) (hmax : f.length ≤ Backend.rtu.maxAduLength) (hfg : g.length = f.length)
    (hwrong : Detectable 16 (wrongBits f g)) : Backend.rtu.checkIntegrity g = false := by
  have hmax : f.length ≤ 256 := hmax
  have hlt : lineMessage f ^^^ lineMessage g < 2 ^ (8 * f.length) :=
    Nat.xor_lt_two_pow (lineMessage_lt f) (hfg ▸ lineMessage_lt g)
  rw [← bitsOf_lineMessage] at hwrong
  rw [Bool.eq_false_iff, Ne, checkIntegrity_damaged_iff hf hlen hfg]
  exact Crc.detected (by decide) (by decide) (by decide) (by decide) (by omega)
    (fun d hd hm => shiftStep_iterate_ne_one hd (by omega)) hlt hwrong

theorem wrongBits_take (f line : List UInt8) :
    wrongBits f (line.take f.length) = wrongBits f line := by
  refine List.filter_congr fun i hi => ?_
  have hi : i / 8 < f.length := by
    have := List.mem_range.1 hi
    omega
  rw [lineBit, lineBit, lineBit, getD_take hi]

/-- A frame as a sender makes it: as long as its own bytes say, and with its CRC. -/
structure WellFramed (t : MsgType) (frame : List UInt8) : Prop where
  size : (msgRule .rtu t).frameLength frame = frame.length
  max : frame.length ≤ Backend.rtu.maxAduLength
  sound : Backend.rtu.checkIntegrity frame = true

section WellFramed

variable {t : MsgType} {arrive : Nat → Nat} {frame line : List UInt8}

theorem two_le_frameLength (line : List UInt8) : 2 ≤ (msgRule .rtu t).frameLength line := by
  have hcrc : 2 ≤ computeDataLengthAfterMeta .rtu line t := Nat.le_add_left _ _
  rw [frameLength_msgRule]
  omega

theorem WellFramed.received (h : WellFramed t frame) :
    receiveMsg .rtu t arrive frame = some frame := by
  have hhead : (msgRule .rtu t).headLength frame ≤ (msgRule .rtu t).frameLength frame := by
    unfold FrameRule.frameLength
    omega
  have hadu : (msgRule .rtu t).maxAduLength = Backend.rtu.maxAduLength := rfl
  have hsize := h.size
  have hmax := h.max
  rw [receiveMsg_eq, FrameRule.cut, if_neg (by omega), if_neg (by omega), if_neg (by omega), hsize]
  simp [h.sound]

theorem WellFramed.damaged (h : WellFramed t frame)
    (hsize : (msgRule .rtu t).frameLength line = frame.length)
    (hwrong : Detectable 16 (wrongBits frame line)) : receiveMsg .rtu t arrive line = none := by
  have htwo : 2 ≤ frame.length := h.size ▸ two_le_frameLength frame
  by_contra hsome
  obtain ⟨g, hg⟩ := Option.ne_none_iff_exists'.1 hsome
  obtain ⟨rfl, hlen, -, hint⟩ := receiveMsg_frame hg
  rw [hsize] at hlen hint
  rw [← wrongBits_take] at hwrong
  rw [checkIntegrity_damaged h.sound htwo h.max (List.length_take_of_le hlen) hwrong] at hint
  cases hint

end WellFramed

/-- What is received is well framed. -/
theorem receiveMsg_wellFramed {t : MsgType} {arrive : Nat → Nat} {stream frame : List UInt8}
    (h : receiveMsg .rtu t arrive stream = some frame) : WellFramed t frame := by
  obtain ⟨hframe, hlen, hmax, hint⟩ := receiveMsg_frame h
  have hlength : frame.length = (msgRule .rtu t).frameLength stream := by
    rw [hframe, List.length_take, Nat.min_eq_left hlen]
  refine ⟨?_, hlength ▸ hmax, hint⟩
  rw [hlength, hframe]
  exact FrameRule.frameLength_take _ stream (Nat.le_refl _)

/-- **A damaged frame is refused**, however it arrives, if its length is still to be read from it
and its wrong bits are an odd number, two, or none further apart than sixteen. -/
theorem damaged_frame_refused {t : MsgType} {arrive arrive' : Nat → Nat}
    {stream frame line : List UInt8} (h : receiveMsg .rtu t arrive stream = some frame)
    (hsize : (msgRule .rtu t).frameLength line = frame.length)
    (hwrong : Detectable 16 (wrongBits frame line)) :
    receiveMsg .rtu t arrive' line = none :=
  (receiveMsg_wellFramed h).damaged hsize hwrong

/-- Sixteen wrong bits in a row, in the address of a request. -/
theorem damaged_frame_refused_burst :
    receiveMsg .rtu .indication (fun _ => 1) [1, 3, 0xFF, 0xFF, 0, 1, 0x84, 0x0A] = none := by
  have hsent : receiveMsg .rtu .indication (fun _ => 256) [1, 3, 0, 0, 0, 1, 0x84, 0x0A] =
      some [1, 3, 0, 0, 0, 1, 0x84, 0x0A] := by
    rw [receiveMsg_eq]
    decide +kernel
  exact damaged_frame_refused hsent (by decide) (.burst (by decide) (by decide))

end RtuA118
