import RtuA118.Lib.View
import RtuA118.Modbus.Reply

/-!
# RtuA118.Modbus.RequestBytes

Is a request interpreted from its received bytes alone? The three front ends hand
over a buffer and a length; the answer is computed from offsets that the request
itself names.

`SelfContained` is the exact condition on the received bytes. Two front ends size
a frame so that its fixed fields are there, so for them the condition is about one
thing only: a write of `nb` registers reads `2 * nb` bytes, and the frame was sized
by the **byte-count** field, which nobody compares with `nb`. The UDP server passes
on datagrams cut short anywhere after the function code; there the fields present
must already decide.
-/

namespace RtuA118

open View (AgreesOn extend Settled)

/-! ### The front ends -/

/-- The ways a request comes in. -/
inductive FrontEnd where
  | rtu
  | tcp
  | udp
  deriving DecidableEq, Repr

namespace FrontEnd

def backend : FrontEnd → Backend
  | .rtu => .rtu
  | .tcp => .tcp
  | .udp => .tcp

end FrontEnd

/-- `udp_heart_pack_check_integrity` as the UDP server applies it. -/
def isHeartbeat (frame : List UInt8) : Bool :=
  decide (frame.length > 11) && frame.getD 0 0 == 0xC0 &&
    crc16 (frame.drop 11) == (frame.getD 9 0, frame.getD 10 0)

/-- The byte sequences a front end passes on as one request. -/
def FrontEnd.Accepts : FrontEnd → List UInt8 → Prop
  | .udp, frame => 7 < frame.length ∧ frame.length ≤ Backend.tcp.maxAduLength ∧
      isHeartbeat frame = false
  | .rtu, frame => ∃ arrive stream, receiveMsg .rtu .indication arrive stream = some frame
  | .tcp, frame => ∃ arrive stream, receiveMsg .tcp .indication arrive stream = some frame

/-- A received frame reaches at least to its function code. -/
theorem receiveMsg_length {b : Backend} {t : MsgType} {arrive : Nat → Nat}
    {stream frame : List UInt8} (h : receiveMsg b t arrive stream = some frame) :
    b.headerLength < frame.length := by
  obtain ⟨rfl, hlen, -, -⟩ := receiveMsg_frame h
  rw [List.length_take]
  rw [frameLength_msgRule] at hlen ⊢
  omega

theorem FrontEnd.Accepts.length {fe : FrontEnd} {frame : List UInt8} (h : fe.Accepts frame) :
    fe.backend.headerLength < frame.length := by
  cases fe with
  | udp => exact h.1
  | rtu =>
      obtain ⟨_, _, h⟩ := h
      exact receiveMsg_length h
  | tcp =>
      obtain ⟨_, _, h⟩ := h
      exact receiveMsg_length h

/-! ### The condition -/

/-- A read: the count is there, or its high byte alone decides on an exception. -/
def ReadSettled (o n address nbHi : Nat) : Prop :=
  o + 5 ≤ n ∨ n = o + 4 ∧
    (4 ≤ nbHi ∨ 1 ≤ nbHi ∧ nbHi ≤ 2 ∧ maxRegisterNum < address + 256 * nbHi)

/-- A write of one register: the value is there, or the address is refused. -/
def WriteSingleSettled (o n address addressHi : Nat) : Prop :=
  o + 5 ≤ n ∨ o + 3 ≤ n ∧ maxRegisterNum ≤ address ∨ n = o + 2 ∧ 40 ≤ addressHi

/-- A write of several registers: every data byte is there, or the request is
refused by the fields that are. -/
def WriteMultipleSettled (o n address nb nbHi : Nat) : Prop :=
  o + 5 ≤ n ∧ (nb = 0 ∨ modbusMaxWriteRegisters < nb ∨ maxRegisterNum < address + nb ∨
    o + 6 + 2 * nb ≤ n) ∨ n = o + 4 ∧ 1 ≤ nbHi

/-- The received bytes decide everything `modbus_reply` does. -/
def SelfContained (b : Backend) (frame : List UInt8) : Prop :=
  let o := b.headerLength
  let at' := fun k => frame.getD (o + k) 0
  let unit := (frame.getD (o - 1) 0).toNat
  let address := be16 (at' 1) (at' 2)
  let nb := be16 (at' 3) (at' 4)
  unit < 1 ∨ maxWellNum < unit ∨ at' 0 ≠ 3 ∧ at' 0 ≠ 6 ∧ at' 0 ≠ 16 ∨
    at' 0 = 3 ∧ ReadSettled o frame.length address (at' 3).toNat ∨
    at' 0 = 6 ∧ WriteSingleSettled o frame.length address (at' 1).toNat ∨
    at' 0 = 16 ∧ WriteMultipleSettled o frame.length address nb (at' 3).toNat

instance {o n address nbHi : Nat} : Decidable (ReadSettled o n address nbHi) :=
  inferInstanceAs (Decidable (_ ∨ _))

instance {o n address addressHi : Nat} : Decidable (WriteSingleSettled o n address addressHi) :=
  inferInstanceAs (Decidable (_ ∨ _))

instance {o n address nb nbHi : Nat} : Decidable (WriteMultipleSettled o n address nb nbHi) :=
  inferInstanceAs (Decidable (_ ∨ _))

instance {b : Backend} {frame : List UInt8} : Decidable (SelfContained b frame) :=
  inferInstanceAs (Decidable (_ ∨ _))

/-! ### The branches of the reply -/

section Branches

variable {env : Platform} {b : Backend} {q q' : Nat → UInt8} {n : Nat} {s : Rtu}

theorem modbusReply_ignored (h : (q (b.headerLength - 1)).toNat < 1 ∨
    (q (b.headerLength - 1)).toNat > maxWellNum) : modbusReply env b q n s = (none, s) := by
  unfold modbusReply
  dsimp only
  rw [if_pos h]

variable (hu : ¬ ((q (b.headerLength - 1)).toNat < 1 ∨
  (q (b.headerLength - 1)).toNat > maxWellNum))

include hu

theorem modbusReply_read (hf : q b.headerLength = 3) :
    modbusReply env b q n s = (some (replyRead env b q (q (b.headerLength - 1))
      (be16 (q (b.headerLength + 1)) (q (b.headerLength + 2)))
      (be16 (q (b.headerLength + 3)) (q (b.headerLength + 4))) s), s) := by
  unfold modbusReply
  dsimp only
  rw [if_neg hu, if_pos hf]

theorem modbusReply_writeSingle (hf : q b.headerLength = 6) :
    modbusReply env b q n s =
      let r := replyWriteSingle env b q (q (b.headerLength - 1))
        (be16 (q (b.headerLength + 1)) (q (b.headerLength + 2))) (b.preparedLength n) s
      (some r.1, r.2) := by
  unfold modbusReply
  dsimp only
  rw [if_neg hu, hf, if_neg (by decide), if_pos rfl]

theorem modbusReply_writeMultiple (hf : q b.headerLength = 16) :
    modbusReply env b q n s =
      let r := replyWriteMultiple env b q (q (b.headerLength - 1))
        (be16 (q (b.headerLength + 1)) (q (b.headerLength + 2)))
        (be16 (q (b.headerLength + 3)) (q (b.headerLength + 4))) s
      (some r.1, r.2) := by
  unfold modbusReply
  dsimp only
  rw [if_neg hu, hf, if_neg (by decide), if_neg (by decide), if_pos rfl]

theorem modbusReply_other (hf : q b.headerLength ≠ 3 ∧ q b.headerLength ≠ 6 ∧
    q b.headerLength ≠ 16) :
    modbusReply env b q n s =
      (some (responseException b q (q (b.headerLength - 1)) (q b.headerLength) 1), s) := by
  unfold modbusReply
  dsimp only
  rw [if_neg hu, if_neg hf.1, if_neg hf.2.1, if_neg hf.2.2]

end Branches

/-! ### The condition is enough -/

section Enough

variable {env : Platform} {b : Backend} {q q' : Nat → UInt8} {s : Rtu}

/-- Of the query, an answer's head repeats the transaction identifier only. -/
theorem buildResponseBasis_congr {slave f : UInt8} (h0 : q 0 = q' 0) (h1 : q 1 = q' 1) :
    b.buildResponseBasis q slave f = b.buildResponseBasis q' slave f := by
  unfold Backend.buildResponseBasis
  rw [h0, h1]

theorem responseException_congr {slave f code : UInt8} (h0 : q 0 = q' 0) (h1 : q 1 = q' 1) :
    responseException b q slave f code = responseException b q' slave f code := by
  unfold responseException
  rw [buildResponseBasis_congr h0 h1]

theorem replyRead_congr {slave : UInt8} {address nb : Nat} (h0 : q 0 = q' 0) (h1 : q 1 = q' 1) :
    replyRead env b q slave address nb s = replyRead env b q' slave address nb s := by
  unfold replyRead
  rw [responseException_congr h0 h1, responseException_congr h0 h1, buildResponseBasis_congr h0 h1]

theorem replyWriteSingle_congr {slave : UInt8} {address n : Nat}
    (h : ∀ i, i < n ∨ i < b.headerLength + 5 → q i = q' i) :
    replyWriteSingle env b q slave address n s = replyWriteSingle env b q' slave address n s := by
  have hwords : ∀ k < 1, queryWords q (b.headerLength + 3) k
      = queryWords q' (b.headerLength + 3) k := by
    intro k hk
    unfold queryWords
    rw [h _ (.inr (by omega)), h _ (.inr (by omega))]
  have hecho : (List.range n).map q = (List.range n).map q' :=
    List.map_congr_left fun i hi => h i (.inl (List.mem_range.1 hi))
  unfold replyWriteSingle
  rw [responseException_congr (h 0 (.inr (by omega))) (h 1 (.inr (by omega))), hecho]
  have hwrite : mapModbusWriteRegisters env (queryWords q (b.headerLength + 3)) 1 slave.toNat
      address true s = mapModbusWriteRegisters env (queryWords q' (b.headerLength + 3)) 1
        slave.toNat address true s := mapModbusWriteRegisters_congr hwords
  rw [hwrite]

theorem replyWriteMultiple_congr {slave : UInt8} {address nb : Nat}
    (h : ∀ i, i < b.headerLength + 5 → q i = q' i)
    (hdata : ∀ i, i < b.headerLength + 6 + 2 * nb → b.headerLength + 6 ≤ i → q i = q' i) :
    replyWriteMultiple env b q slave address nb s
      = replyWriteMultiple env b q' slave address nb s := by
  have hwords : ∀ k < nb, queryWords q (b.headerLength + 6) k
      = queryWords q' (b.headerLength + 6) k := by
    intro k hk
    unfold queryWords
    rw [hdata _ (by omega) (by omega), hdata _ (by omega) (by omega)]
  have hecho : ((List.range 4).map fun k => q (b.headerLength + 1 + k))
      = (List.range 4).map fun k => q' (b.headerLength + 1 + k) :=
    List.map_congr_left fun k hk => h _ (by have := List.mem_range.1 hk; omega)
  have h0 := h 0 (by omega)
  have h1 := h 1 (by omega)
  unfold replyWriteMultiple
  rw [responseException_congr h0 h1, responseException_congr h0 h1, buildResponseBasis_congr h0 h1,
    hecho, mapModbusWriteRegisters_congr hwords]

/-- A refused write answers with its exception and changes nothing. -/
theorem replyWriteSingle_exception {slave : UInt8} {address n : Nat}
    (h : maxRegisterNum ≤ address) :
    replyWriteSingle env b q slave address n s = (responseException b q slave 6 2, s) := by
  unfold replyWriteSingle
  rw [if_pos h]

theorem replyWriteMultiple_exception {slave : UInt8} {address nb : Nat} {c : UInt8}
    (h : dueWriteMultiple address nb = .exception c) :
    replyWriteMultiple env b q slave address nb s = (responseException b q slave 16 c, s) := by
  unfold dueWriteMultiple at h
  unfold replyWriteMultiple
  split at h
  · rename_i hc
    rw [if_pos hc, ← Verdict.exception.inj h]
  · rename_i hc
    rw [if_neg hc]
    split at h
    · rename_i hc'
      rw [if_pos hc', ← Verdict.exception.inj h]
    · cases h

end Enough

theorem headerLength_pos (b : Backend) : 0 < b.headerLength := by
  cases b <;> decide

/-- A high byte bounds the number from below. -/
theorem be16_ge (hi lo : UInt8) : 256 * hi.toNat ≤ be16 hi lo := by
  unfold be16
  omega

theorem be16_le (hi lo : UInt8) : be16 hi lo ≤ 256 * hi.toNat + 255 := by
  have h := lo.toNat_lt
  unfold be16
  omega

section Kinds

variable {env : Platform} {b : Backend} {frame : List UInt8} {q q' : Nat → UInt8}
  {slave : UInt8} {s : Rtu} (hq : AgreesOn frame q) (hq' : AgreesOn frame q')

include hq hq'

theorem replyRead_of_settled
    (h : ReadSettled b.headerLength frame.length
      (be16 (frame.getD (b.headerLength + 1) 0) (frame.getD (b.headerLength + 2) 0))
      (frame.getD (b.headerLength + 3) 0).toNat) :
    replyRead env b q slave (be16 (q (b.headerLength + 1)) (q (b.headerLength + 2)))
        (be16 (q (b.headerLength + 3)) (q (b.headerLength + 4))) s =
      replyRead env b q' slave (be16 (q' (b.headerLength + 1)) (q' (b.headerLength + 2)))
        (be16 (q' (b.headerLength + 3)) (q' (b.headerLength + 4))) s := by
  have heq : ∀ i, i < frame.length → q i = q' i := fun i hi => hq.eq hq' hi
  have hlen : b.headerLength + 4 ≤ frame.length := by
    obtain h | h := h <;> omega
  rw [heq (b.headerLength + 1) (by omega), heq (b.headerLength + 2) (by omega),
    heq (b.headerLength + 3) (by omega)]
  obtain h | ⟨-, h⟩ := h
  · rw [heq (b.headerLength + 4) (by omega), replyRead_congr (heq 0 (by omega)) (heq 1 (by omega))]
  -- the count's low byte is missing
  rw [← hq'.getD (i := b.headerLength + 1) (by omega),
    ← hq'.getD (i := b.headerLength + 2) (by omega),
    ← hq'.getD (i := b.headerLength + 3) (by omega)] at h
  obtain ⟨c, hc⟩ : ∃ c, ∀ lo, dueRead (be16 (q' (b.headerLength + 1)) (q' (b.headerLength + 2)))
      (be16 (q' (b.headerLength + 3)) lo) = .exception c := by
    obtain h | ⟨hlo, hhi, h⟩ := h
    · refine ⟨3, fun lo => ?_⟩
      have hge := be16_ge (q' (b.headerLength + 3)) lo
      unfold dueRead modbusMaxReadRegisters
      rw [if_pos (by omega)]
    · refine ⟨2, fun lo => ?_⟩
      have hge := be16_ge (q' (b.headerLength + 3)) lo
      have hle := be16_le (q' (b.headerLength + 3)) lo
      unfold dueRead modbusMaxReadRegisters
      rw [if_neg (by omega), if_pos (by omega)]
  rw [replyRead_exception (hc _), replyRead_exception (hc _),
    responseException_congr (heq 0 (by omega)) (heq 1 (by omega))]

theorem replyWriteSingle_of_settled
    (h : WriteSingleSettled b.headerLength frame.length
      (be16 (frame.getD (b.headerLength + 1) 0) (frame.getD (b.headerLength + 2) 0))
      (frame.getD (b.headerLength + 1) 0).toNat) :
    replyWriteSingle env b q slave (be16 (q (b.headerLength + 1)) (q (b.headerLength + 2)))
        (b.preparedLength frame.length) s =
      replyWriteSingle env b q' slave (be16 (q' (b.headerLength + 1)) (q' (b.headerLength + 2)))
        (b.preparedLength frame.length) s := by
  have ho := headerLength_pos b
  have heq : ∀ i, i < frame.length → q i = q' i := fun i hi => hq.eq hq' hi
  have hlen : b.headerLength + 2 ≤ frame.length := by
    obtain h | h | h := h <;> omega
  have h0 := heq 0 (by omega)
  have h1 := heq 1 (by omega)
  rw [heq (b.headerLength + 1) (by omega)]
  obtain h | ⟨hl, h⟩ | ⟨-, h⟩ := h
  · have hprep : b.preparedLength frame.length ≤ frame.length := Nat.sub_le _ _
    rw [heq (b.headerLength + 2) (by omega), replyWriteSingle_congr fun i hi => heq i (by omega)]
  · -- the address is refused
    rw [← hq'.getD (i := b.headerLength + 1) (by omega),
      ← hq'.getD (i := b.headerLength + 2) (by omega)] at h
    rw [heq (b.headerLength + 2) (by omega), replyWriteSingle_exception h,
      replyWriteSingle_exception h, responseException_congr h0 h1]
  · -- its low byte is missing, and the high byte alone refuses it
    rw [← hq'.getD (i := b.headerLength + 1) (by omega)] at h
    have hge : ∀ lo, maxRegisterNum ≤ be16 (q' (b.headerLength + 1)) lo := by
      intro lo
      have hge := be16_ge (q' (b.headerLength + 1)) lo
      unfold maxRegisterNum
      omega
    rw [replyWriteSingle_exception (hge _), replyWriteSingle_exception (hge _),
      responseException_congr h0 h1]

theorem replyWriteMultiple_of_settled
    (h : WriteMultipleSettled b.headerLength frame.length
      (be16 (frame.getD (b.headerLength + 1) 0) (frame.getD (b.headerLength + 2) 0))
      (be16 (frame.getD (b.headerLength + 3) 0) (frame.getD (b.headerLength + 4) 0))
      (frame.getD (b.headerLength + 3) 0).toNat) :
    replyWriteMultiple env b q slave (be16 (q (b.headerLength + 1)) (q (b.headerLength + 2)))
        (be16 (q (b.headerLength + 3)) (q (b.headerLength + 4))) s =
      replyWriteMultiple env b q' slave (be16 (q' (b.headerLength + 1)) (q' (b.headerLength + 2)))
        (be16 (q' (b.headerLength + 3)) (q' (b.headerLength + 4))) s := by
  have heq : ∀ i, i < frame.length → q i = q' i := fun i hi => hq.eq hq' hi
  have hlen : b.headerLength + 4 ≤ frame.length := by
    obtain h | h := h <;> omega
  have h0 := heq 0 (by omega)
  have h1 := heq 1 (by omega)
  rw [heq (b.headerLength + 1) (by omega), heq (b.headerLength + 2) (by omega),
    heq (b.headerLength + 3) (by omega)]
  obtain ⟨hl, h⟩ | ⟨-, h⟩ := h
  · rw [← hq'.getD (i := b.headerLength + 1) (by omega),
      ← hq'.getD (i := b.headerLength + 2) (by omega),
      ← hq'.getD (i := b.headerLength + 3) (by omega),
      ← hq'.getD (i := b.headerLength + 4) (by omega)] at h
    rw [heq (b.headerLength + 4) (by omega)]
    by_cases hdata : b.headerLength + 6 + 2 * be16 (q' (b.headerLength + 3))
        (q' (b.headerLength + 4)) ≤ frame.length
    · rw [replyWriteMultiple_congr (fun i hi => heq i (by omega)) fun i hi _ => heq i (by omega)]
    · obtain ⟨c, hc⟩ : ∃ c, dueWriteMultiple (be16 (q' (b.headerLength + 1))
          (q' (b.headerLength + 2))) (be16 (q' (b.headerLength + 3)) (q' (b.headerLength + 4)))
          = .exception c := by
        unfold dueWriteMultiple
        split
        · exact ⟨3, rfl⟩
        · rw [if_pos (by omega)]
          exact ⟨2, rfl⟩
      rw [replyWriteMultiple_exception hc, replyWriteMultiple_exception hc,
        responseException_congr h0 h1]
  · -- the count's low byte is missing
    rw [← hq'.getD (i := b.headerLength + 3) (by omega)] at h
    have hc : ∀ address lo, dueWriteMultiple address (be16 (q' (b.headerLength + 3)) lo)
        = .exception 3 := by
      intro address lo
      have hge := be16_ge (q' (b.headerLength + 3)) lo
      unfold dueWriteMultiple modbusMaxWriteRegisters
      rw [if_pos (by omega)]
    rw [replyWriteMultiple_exception (hc _ _), replyWriteMultiple_exception (hc _ _),
      responseException_congr h0 h1]

end Kinds

/-- **The condition is enough**, in every state. -/
theorem settled_of_selfContained {env : Platform} {b : Backend} {frame : List UInt8} {s : Rtu}
    (hn : b.headerLength < frame.length) (h : SelfContained b frame) :
    Settled frame fun q => modbusReply env b q frame.length s := by
  intro q q' hq hq'
  have ho := headerLength_pos b
  have hunit := hq.eq hq' (show b.headerLength - 1 < frame.length by omega)
  have hfun := hq.eq hq' hn
  unfold SelfContained at h
  dsimp only at h
  rw [Nat.add_zero, ← hq.getD (i := b.headerLength - 1) (by omega), ← hq.getD hn] at h
  by_cases hu : (q (b.headerLength - 1)).toNat < 1 ∨ (q (b.headerLength - 1)).toNat > maxWellNum
  · dsimp only
    rw [modbusReply_ignored hu, modbusReply_ignored (hunit ▸ hu)]
  have hu' : ¬ ((q' (b.headerLength - 1)).toNat < 1 ∨
      (q' (b.headerLength - 1)).toNat > maxWellNum) := hunit ▸ hu
  dsimp only
  obtain h | h | h | ⟨hf, h⟩ | ⟨hf, h⟩ | ⟨hf, h⟩ := h
  · exact absurd (.inl h) hu
  · exact absurd (.inr h) hu
  · -- a function that is not served
    rw [modbusReply_other hu h, modbusReply_other hu' (hfun ▸ h), hunit, hfun,
      responseException_congr (hq.eq hq' (by omega)) (hq.eq hq' (by omega))]
  · rw [modbusReply_read hu hf, modbusReply_read hu' (hfun ▸ hf), ← hunit,
      replyRead_of_settled hq hq' h]
  · rw [modbusReply_writeSingle hu hf, modbusReply_writeSingle hu' (hfun ▸ hf), ← hunit,
      replyWriteSingle_of_settled hq hq' h]
  · rw [modbusReply_writeMultiple hu hf, modbusReply_writeMultiple hu' (hfun ▸ hf), ← hunit,
      replyWriteMultiple_of_settled hq hq' h]

/-! ### The condition is needed -/

/-- A unit none of whose registers is mapped. -/
def unmappedUnit : Rtu := .start (emptyMap 1 (fun _ => 0) fun _ => 0)

/-- The zero continuation, and the one that differs from it at one offset. -/
def zeros : Nat → UInt8 := fun _ => 0
def oneAt (j : Nat) : Nat → UInt8 := fun i => if i = j then 1 else 0

theorem oneAt_self (j : Nat) : oneAt j j = 1 := if_pos rfl

theorem zeros_ne_one {j : Nat} : zeros j ≠ 1 := by
  unfold zeros
  decide

theorem oneAt_of_ne {i j : Nat} (h : i ≠ j) : oneAt j i = zeros i := if_neg h

section Needed

variable {env : Platform} {b : Backend} {frame : List UInt8}

/-- Continuations that agree at an offset give the same byte there. -/
theorem extend_congr {g g' : Nat → UInt8} {i : Nat} (h : frame.length ≤ i → g i = g' i) :
    extend frame g i = extend frame g' i := by
  by_cases hi : i < frame.length
  · rw [View.extend_of_lt 0 hi, View.extend_of_lt 0 hi]
  · rw [View.extend_of_ge (by omega), View.extend_of_ge (by omega), h (by omega)]

/-- A word written to an unmapped register is there to be seen. -/
theorem replyWriteSingle_sees {q : Nat → UInt8} {slave : UInt8} {address n : Nat}
    (hw : 1 ≤ slave.toNat) (hw8 : slave.toNat ≤ maxWellNum) (ha : address < maxRegisterNum) :
    (replyWriteSingle env b q slave address n unmappedUnit).2.map.ramY
        (yBase slave.toNat + address)
      = orderWord true (queryWords q (b.headerLength + 3) 0) := by
  unfold replyWriteSingle
  rw [if_neg (by omega)]
  exact mapModbusWriteRegisters_unmapped (n := 1) (k := 0) (s := unmappedUnit) (fun _ => rfl) hw
    hw8 (show address + 1 ≤ maxRegisterNum by omega) (by omega)

theorem replyWriteMultiple_sees {q : Nat → UInt8} {slave : UInt8} {address nb k : Nat}
    (hw : 1 ≤ slave.toNat) (hw8 : slave.toNat ≤ maxWellNum) (hnb : nb ≤ modbusMaxWriteRegisters)
    (hend : address + nb ≤ maxRegisterNum) (hk : k < nb) :
    (replyWriteMultiple env b q slave address nb unmappedUnit).2.map.ramY
        (yBase slave.toNat + (address + k))
      = orderWord true (queryWords q (b.headerLength + 6) k) := by
  unfold replyWriteMultiple
  rw [if_neg (by omega), if_neg (by omega)]
  exact mapModbusWriteRegisters_unmapped (fun _ => rfl) hw hw8 hend hk

/-- A refused write of several registers and a granted one answer differently. -/
theorem replyWriteMultiple_ne {q q' : Nat → UInt8} {slave : UInt8} {address address' : Nat}
    {s : Rtu} : (replyWriteMultiple env b q slave address 0 s).1
      ≠ (replyWriteMultiple env b q' slave address' 1 s).1 := by
  have hzero : dueWriteMultiple address 0 = .exception 3 := rfl
  rw [replyWriteMultiple_exception hzero]
  intro h
  by_cases hend : address' + 1 > maxRegisterNum
  · have hone : dueWriteMultiple address' 1 = .exception 2 := by
      unfold dueWriteMultiple modbusMaxWriteRegisters
      rw [if_neg (by omega), if_pos hend]
    rw [replyWriteMultiple_exception hone] at h
    have hcode := congrArg (fun r => r.getD (b.headerLength + 1) 0) h
    simp only [responseException_code] at hcode
    exact absurd hcode (by decide)
  · unfold replyWriteMultiple modbusMaxWriteRegisters at h
    rw [if_neg (by omega), if_neg hend] at h
    have hl := congrArg List.length h
    simp at hl

variable (hn : b.headerLength < frame.length)
  (hu : ¬ ((frame.getD (b.headerLength - 1) 0).toNat < 1 ∨
    (frame.getD (b.headerLength - 1) 0).toNat > maxWellNum))
  (h : Settled frame fun q =>
    ((modbusReply env b q frame.length unmappedUnit).1,
      (modbusReply env b q frame.length unmappedUnit).2.map))

include hn hu h

theorem readSettled_of_settled (hf : frame.getD b.headerLength 0 = 3) :
    ReadSettled b.headerLength frame.length
      (be16 (frame.getD (b.headerLength + 1) 0) (frame.getD (b.headerLength + 2) 0))
      (frame.getD (b.headerLength + 3) 0).toNat := by
  have ho := headerLength_pos b
  have hlt : ∀ (g : Nat → UInt8) {i : Nat}, i < frame.length →
      extend frame g i = frame.getD i 0 := fun g i hi => View.extend_of_lt 0 hi
  have hw8 : (frame.getD (b.headerLength - 1) 0).toNat ≤ maxWellNum := by omega
  -- any two continuations are due the same answer
  have hdue : ∀ g g' : Nat → UInt8,
      dueRead (be16 (extend frame g (b.headerLength + 1)) (extend frame g (b.headerLength + 2)))
          (be16 (extend frame g (b.headerLength + 3)) (extend frame g (b.headerLength + 4))) =
        dueRead (be16 (extend frame g' (b.headerLength + 1)) (extend frame g' (b.headerLength + 2)))
          (be16 (extend frame g' (b.headerLength + 3)) (extend frame g' (b.headerLength + 4))) := by
    intro g g'
    have heq := congrArg Prod.fst (h _ _ (View.agreesOn_extend frame g)
      (View.agreesOn_extend frame g'))
    have hunit : ∀ g, extend frame g (b.headerLength - 1) = frame.getD (b.headerLength - 1) 0 :=
      fun g => hlt g (by omega)
    dsimp only at heq
    rw [modbusReply_read (by rw [hunit]; exact hu) (by rw [hlt g hn]; exact hf),
      modbusReply_read (by rw [hunit]; exact hu) (by rw [hlt g' hn]; exact hf), hunit, hunit] at heq
    exact dueRead_of_replyRead_eq (by omega) hw8 (Option.some.inj heq)
  unfold ReadSettled
  by_contra hns
  have hlo : frame.length ≤ b.headerLength + 4 := by omega
  have hlow : ∀ g, extend frame g (b.headerLength + 4) = g (b.headerLength + 4) :=
    fun g => View.extend_of_ge hlo
  have h01 := hdue zeros (oneAt (b.headerLength + 4))
  have h0255 := hdue zeros fun _ => 255
  rw [hlow, hlow] at h01 h0255
  rw [oneAt_self] at h01
  have hz : (zeros (b.headerLength + 4)).toNat = 0 := rfl
  by_cases hl : frame.length ≤ b.headerLength + 3
  · -- the count is missing: none or one
    rw [View.extend_of_ge hl, View.extend_of_ge hl, oneAt_of_ne (by omega)] at h01
    have h3 := dueRead_eq_three_iff.1 (h01 ▸ dueRead_eq_three_iff.2 (.inl (Nat.zero_lt_one)))
    exact absurd h3 (by simp [zeros, be16, modbusMaxReadRegisters])
  · -- only its low byte is
    have haddr : ∀ g,
        be16 (extend frame g (b.headerLength + 1)) (extend frame g (b.headerLength + 2))
          = be16 (frame.getD (b.headerLength + 1) 0) (frame.getD (b.headerLength + 2) 0) := by
      intro g
      rw [hlt g (by omega), hlt g (by omega)]
    rw [haddr, haddr, hlt _ (show b.headerLength + 3 < frame.length by omega),
      hlt _ (show b.headerLength + 3 < frame.length by omega)] at h01 h0255
    obtain ⟨address, ha⟩ : ∃ address, address = be16 (frame.getD (b.headerLength + 1) 0)
        (frame.getD (b.headerLength + 2) 0) := ⟨_, rfl⟩
    obtain ⟨hi, hhi⟩ : ∃ hi, hi = frame.getD (b.headerLength + 3) 0 := ⟨_, rfl⟩
    rw [← ha, ← hhi] at h01 h0255
    rw [← ha, ← hhi] at hns
    have hb0 : be16 hi (zeros (b.headerLength + 4)) = 256 * hi.toNat := rfl
    have hb1 : be16 hi 1 = 256 * hi.toNat + 1 := rfl
    have hb255 : be16 hi 255 = 256 * hi.toNat + 255 := rfl
    rw [hb0, hb1] at h01
    rw [hb0, hb255] at h0255
    unfold maxRegisterNum at hns
    by_cases hi0 : hi.toNat = 0
    · -- none or one
      have hzero : dueRead address (256 * hi.toNat) = .exception 3 :=
        dueRead_eq_three_iff.2 (.inl (by omega))
      have hone := dueRead_eq_three_iff.1 (h01.symm.trans hzero)
      unfold modbusMaxReadRegisters at hone
      omega
    by_cases hi3 : hi.toNat = 3
    · -- 768 or 1023
      have hmax : dueRead address (256 * hi.toNat + 255) = .exception 3 :=
        dueRead_eq_three_iff.2 (.inr (by unfold modbusMaxReadRegisters; omega))
      have hmin := dueRead_eq_three_iff.1 (h0255.trans hmax)
      unfold modbusMaxReadRegisters at hmin
      omega
    · have hs : dueRead address (256 * hi.toNat) = .success (256 * hi.toNat) := by
        unfold dueRead modbusMaxReadRegisters maxRegisterNum
        rw [if_neg (by omega), if_neg (by omega)]
      have hn' := (dueRead_success (h0255.symm.trans hs)).1
      omega

theorem writeSingleSettled_of_settled (hf : frame.getD b.headerLength 0 = 6) :
    WriteSingleSettled b.headerLength frame.length
      (be16 (frame.getD (b.headerLength + 1) 0) (frame.getD (b.headerLength + 2) 0))
      (frame.getD (b.headerLength + 1) 0).toNat := by
  have ho := headerLength_pos b
  have hw8 : (frame.getD (b.headerLength - 1) 0).toNat ≤ maxWellNum := by omega
  unfold WriteSingleSettled
  by_contra hns
  -- the value's low byte is missing, and the zero continuation completes a good address
  have hlow : ∀ g, extend frame g (b.headerLength + 4) = g (b.headerLength + 4) :=
    fun g => View.extend_of_ge (by omega)
  obtain ⟨address, haddress⟩ : ∃ address, address =
      be16 (extend frame zeros (b.headerLength + 1)) (extend frame zeros (b.headerLength + 2)) :=
    ⟨_, rfl⟩
  have hlt : address < maxRegisterNum := by
    have hz : (zeros (b.headerLength + 1)).toNat = 0 := rfl
    have hz' : (zeros (b.headerLength + 2)).toNat = 0 := rfl
    rw [haddress]
    unfold maxRegisterNum at hns ⊢
    by_cases h2 : b.headerLength + 2 < frame.length
    · rw [View.extend_of_lt 0 (by omega), View.extend_of_lt 0 h2]
      omega
    by_cases h1 : b.headerLength + 1 < frame.length
    · rw [View.extend_of_lt 0 h1, View.extend_of_ge (by omega)]
      unfold be16
      omega
    · rw [View.extend_of_ge (by omega), View.extend_of_ge (by omega)]
      unfold be16
      omega
  -- that address gets the value of either continuation
  have hsees : ∀ g, (∀ i, i ≠ b.headerLength + 4 → g i = zeros i) →
      (modbusReply env b (extend frame g) frame.length unmappedUnit).2.map.ramY
          (yBase (frame.getD (b.headerLength - 1) 0).toNat + address)
        = orderWord true (wordOfBytes (extend frame zeros (b.headerLength + 3))
            (g (b.headerLength + 4))) := by
    intro g hgz
    have hsame : ∀ i, i ≠ b.headerLength + 4 → extend frame g i = extend frame zeros i :=
      fun i hi => extend_congr fun _ => hgz i hi
    have hunit : extend frame g (b.headerLength - 1) = frame.getD (b.headerLength - 1) 0 :=
      View.extend_of_lt 0 (by omega)
    rw [modbusReply_writeSingle (by rw [hunit]; exact hu)
      (by rw [View.extend_of_lt 0 hn]; exact hf), hunit, hsame _ (by omega), hsame _ (by omega),
      ← haddress]
    refine (replyWriteSingle_sees (by omega) hw8 hlt).trans ?_
    unfold queryWords
    rw [hsame _ (by omega), ← hlow g]
  have hz := hsees zeros fun _ _ => rfl
  have h1 := hsees (oneAt (b.headerLength + 4)) fun i hi => oneAt_of_ne hi
  have heq := congrArg (fun r => r.2.ramY
    (yBase (frame.getD (b.headerLength - 1) 0).toNat + address))
    (h _ _ (View.agreesOn_extend frame zeros)
      (View.agreesOn_extend frame (oneAt (b.headerLength + 4))))
  dsimp only at heq
  rw [hz, h1, orderWord_inj, wordOfBytes_inj, oneAt_self] at heq
  exact zeros_ne_one heq.2

theorem writeMultipleSettled_of_settled (hf : frame.getD b.headerLength 0 = 16) :
    WriteMultipleSettled b.headerLength frame.length
      (be16 (frame.getD (b.headerLength + 1) 0) (frame.getD (b.headerLength + 2) 0))
      (be16 (frame.getD (b.headerLength + 3) 0) (frame.getD (b.headerLength + 4) 0))
      (frame.getD (b.headerLength + 3) 0).toNat := by
  have ho := headerLength_pos b
  have hw8 : (frame.getD (b.headerLength - 1) 0).toNat ≤ maxWellNum := by omega
  have hreply : ∀ g, modbusReply env b (extend frame g) frame.length unmappedUnit =
      let r := replyWriteMultiple env b (extend frame g) (frame.getD (b.headerLength - 1) 0)
        (be16 (extend frame g (b.headerLength + 1)) (extend frame g (b.headerLength + 2)))
        (be16 (extend frame g (b.headerLength + 3)) (extend frame g (b.headerLength + 4)))
        unmappedUnit
      (some r.1, r.2) := by
    intro g
    have hunit : extend frame g (b.headerLength - 1) = frame.getD (b.headerLength - 1) 0 :=
      View.extend_of_lt 0 (by omega)
    rw [modbusReply_writeMultiple (by rw [hunit]; exact hu)
      (by rw [View.extend_of_lt 0 hn]; exact hf), hunit]
  unfold WriteMultipleSettled
  by_contra hns
  by_cases hlen : b.headerLength + 5 ≤ frame.length
  · -- the fixed fields are there, and the last data byte is missing
    obtain ⟨address, haddress⟩ : ∃ address, address = be16 (frame.getD (b.headerLength + 1) 0)
        (frame.getD (b.headerLength + 2) 0) := ⟨_, rfl⟩
    obtain ⟨nb, hnb⟩ : ∃ nb, nb = be16 (frame.getD (b.headerLength + 3) 0)
        (frame.getD (b.headerLength + 4) 0) := ⟨_, rfl⟩
    rw [← haddress, ← hnb] at hns
    have hsees : ∀ g, (modbusReply env b (extend frame g) frame.length unmappedUnit).2.map.ramY
          (yBase (frame.getD (b.headerLength - 1) 0).toNat + (address + (nb - 1)))
        = orderWord true (wordOfBytes (extend frame g (b.headerLength + 6 + 2 * (nb - 1)))
            (g (b.headerLength + 6 + 2 * (nb - 1) + 1))) := by
      intro g
      rw [hreply, View.extend_of_lt 0 (show b.headerLength + 1 < frame.length by omega),
        View.extend_of_lt 0 (show b.headerLength + 2 < frame.length by omega),
        View.extend_of_lt 0 (show b.headerLength + 3 < frame.length by omega),
        View.extend_of_lt 0 (show b.headerLength + 4 < frame.length by omega), ← haddress, ← hnb]
      refine (replyWriteMultiple_sees (k := nb - 1) (by omega) hw8 (by omega) (by omega)
        (by omega)).trans ?_
      unfold queryWords
      rw [View.extend_of_ge (g := g) (i := b.headerLength + 6 + 2 * (nb - 1) + 1) (by omega)]
    have heq := congrArg (fun r => r.2.ramY
      (yBase (frame.getD (b.headerLength - 1) 0).toNat + (address + (nb - 1))))
      (h _ _ (View.agreesOn_extend frame zeros)
        (View.agreesOn_extend frame (oneAt (b.headerLength + 6 + 2 * (nb - 1) + 1))))
    dsimp only at heq
    rw [hsees, hsees, orderWord_inj, wordOfBytes_inj, oneAt_self] at heq
    exact zeros_ne_one heq.2
  · -- the count's low byte is missing: none or one
    have hlow : ∀ g, extend frame g (b.headerLength + 4) = g (b.headerLength + 4) :=
      fun g => View.extend_of_ge (by omega)
    have hhigh : (extend frame zeros (b.headerLength + 3)).toNat = 0 := by
      by_cases h3 : b.headerLength + 3 < frame.length
      · rw [View.extend_of_lt 0 h3]
        omega
      · rw [View.extend_of_ge (by omega)]
        rfl
    have hsame : extend frame (oneAt (b.headerLength + 4)) (b.headerLength + 3)
        = extend frame zeros (b.headerLength + 3) :=
      extend_congr fun _ => oneAt_of_ne (by omega)
    have heq := congrArg Prod.fst (h _ _ (View.agreesOn_extend frame zeros)
      (View.agreesOn_extend frame (oneAt (b.headerLength + 4))))
    dsimp only at heq
    have hnone :
        be16 (extend frame zeros (b.headerLength + 3)) (zeros (b.headerLength + 4)) = 0 := by
      unfold be16
      rw [hhigh]
      rfl
    have hone : be16 (extend frame zeros (b.headerLength + 3)) 1 = 1 := by
      unfold be16
      rw [hhigh]
      rfl
    rw [hreply, hreply, hlow, hlow, hsame, oneAt_self, hnone, hone] at heq
    exact replyWriteMultiple_ne (Option.some.inj heq)

/-- **The condition is needed**, already for a unit with no mapped register. -/
theorem selfContained_of_settled : SelfContained b frame := by
  unfold SelfContained
  dsimp only
  rw [Nat.add_zero]
  by_cases h3 : frame.getD b.headerLength 0 = 3
  · exact .inr (.inr (.inr (.inl ⟨h3, readSettled_of_settled hn hu h h3⟩)))
  by_cases h6 : frame.getD b.headerLength 0 = 6
  · exact .inr (.inr (.inr (.inr (.inl ⟨h6, writeSingleSettled_of_settled hn hu h h6⟩))))
  by_cases h16 : frame.getD b.headerLength 0 = 16
  · exact .inr (.inr (.inr (.inr (.inr ⟨h16, writeMultipleSettled_of_settled hn hu h h16⟩))))
  · exact .inr (.inr (.inl ⟨h3, h6, h16⟩))

end Needed

/-! ### The received bytes decide -/

/-- The received bytes of a request decide the answer and the registers, whatever
the state, exactly when they are **self-contained**. -/
theorem request_settled_iff (env : Platform) (fe : FrontEnd) (frame : List UInt8)
    (hacc : fe.Accepts frame) :
    (∀ s, Settled frame fun q =>
        ((modbusReply env fe.backend q frame.length s).1,
          (modbusReply env fe.backend q frame.length s).2.map)) ↔
      SelfContained fe.backend frame := by
  have hn := hacc.length
  constructor
  · intro h
    by_cases hu : (frame.getD (fe.backend.headerLength - 1) 0).toNat < 1 ∨
        (frame.getD (fe.backend.headerLength - 1) 0).toNat > maxWellNum
    · unfold SelfContained
      rcases hu with hu | hu
      · exact .inl hu
      · exact .inr (.inl hu)
    · exact selfContained_of_settled hn hu (h unmappedUnit)
  · intro h s q q' hq hq'
    have heq : modbusReply env fe.backend q frame.length s
        = modbusReply env fe.backend q' frame.length s :=
      settled_of_selfContained hn h q q' hq hq'
    dsimp only
    rw [heq]

/-- A TCP write of one register whose byte count is zero: its data never came. -/
def dataless : List UInt8 := [0, 1, 0, 0, 0, 7, 1, 16, 0, 5, 0, 1, 0]

theorem dataless_accepted : FrontEnd.tcp.Accepts dataless :=
  ⟨fun _ => 1, dataless, by rw [receiveMsg_eq]; decide⟩

/-- The TCP front end takes it for a whole request; what it writes is not in it. -/
theorem dataless_settled_iff :
    FrontEnd.tcp.Accepts dataless ∧
      ((∀ s, Settled dataless fun q =>
          ((modbusReply (.bare fun _ => none) .tcp q dataless.length s).1,
            (modbusReply (.bare fun _ => none) .tcp q dataless.length s).2.map)) ↔
        SelfContained .tcp dataless) :=
  ⟨dataless_accepted, request_settled_iff (.bare fun _ => none) .tcp dataless dataless_accepted⟩

/-- Not every accepted request is interpreted from its received bytes alone. -/
theorem not_request_settled :
    ¬ ∀ (env : Platform) (fe : FrontEnd) (frame : List UInt8), fe.Accepts frame →
        ∀ s, Settled frame fun q =>
          ((modbusReply env fe.backend q frame.length s).1,
            (modbusReply env fe.backend q frame.length s).2.map) := by
  intro h
  have hs := h (.bare fun _ => none) .tcp dataless dataless_accepted unmappedUnit
  have hc : SelfContained .tcp dataless := selfContained_of_settled (by decide) (by decide) hs
  revert hc
  decide

end RtuA118
