import Mathlib.Data.List.GetD
import RtuA118.Map.Modbus
import RtuA118.Modbus.Receive

/-!
# RtuA118.Modbus.Reply

`modbus_reply`, the answer to a request, and `check_confirmation`, the master's
look at an answer.

The request is the **query buffer**, a function from an offset to the byte there,
together with the number of bytes received: the code reads wherever its offsets
lead, whether or not a byte was received there.
-/

namespace RtuA118

/-- `MODBUS_MAX_READ_REGISTERS` and `MODBUS_MAX_WRITE_REGISTERS`. -/
def modbusMaxReadRegisters : Nat := 1020
def modbusMaxWriteRegisters : Nat := 123

/-! ### The backends' part -/

namespace Backend

/-- `prepare_response_tid`: the length without the checksum. -/
def preparedLength (b : Backend) (reqLength : Nat) : Nat := reqLength - b.checksumLength

/-- `build_response_basis`. The length bytes of a TCP header come with `sendMsg`. -/
def buildResponseBasis (b : Backend) (q : Nat → UInt8) (slave function : UInt8) : List UInt8 :=
  match b with
  | .rtu => [slave, function]
  | .tcp => [q 0, q 1, 0, 0, 0, 0, slave, function]

/-- `send_msg_pre`: the checksum of an RTU frame, the length of a TCP frame. -/
def sendMsgPre (b : Backend) (rsp : List UInt8) : List UInt8 :=
  match b with
  | .rtu => rsp ++ [(crc16 rsp).1, (crc16 rsp).2]
  | .tcp =>
    let mbapLength := rsp.length - 6
    (rsp.set 4 (UInt8.ofNat (mbapLength / 256))).set 5 (UInt8.ofNat (mbapLength % 256))

end Backend

/-- The words a `uint16_t` pointer to offset `off` of the query sees. -/
def queryWords (q : Nat → UInt8) (off : Nat) : Nat → UInt16 := fun k =>
  wordOfBytes (q (off + 2 * k)) (q (off + 2 * k + 1))

/-! ### `modbus_reply` -/

/-- `response_exception` and the sending of it. -/
def responseException (b : Backend) (q : Nat → UInt8) (slave function code : UInt8) : List UInt8 :=
  b.sendMsgPre (b.buildResponseBasis q slave (function + 0x80) ++ [code])

/-- The branch `_FC_READ_HOLDING_REGISTERS`. -/
def replyRead (env : Platform) (b : Backend) (q : Nat → UInt8) (slave : UInt8) (address nb : Nat)
    (s : Rtu) : List UInt8 :=
  if nb < 1 ∨ modbusMaxReadRegisters < nb then responseException b q slave 3 3
  else if address + nb > maxRegisterNum then responseException b q slave 3 2
  else
    -- the guards above are those of the register map, so the read does not fail
    let ws := (mapModbusReadRegisters env s nb slave.toNat address true).getD []
    b.sendMsgPre (b.buildResponseBasis q slave 3 ++ [UInt8.ofNat (2 * nb)] ++ bytesOfWords ws)

/-- The branch `_FC_WRITE_SINGLE_REGISTER`: the echo is the request itself. -/
def replyWriteSingle (env : Platform) (b : Backend) (q : Nat → UInt8) (slave : UInt8)
    (address reqLength : Nat) (s : Rtu) : List UInt8 × Rtu :=
  if address ≥ maxRegisterNum then (responseException b q slave 6 2, s)
  else
    (b.sendMsgPre ((List.range reqLength).map q),
      (mapModbusWriteRegisters env (queryWords q (b.headerLength + 3)) 1 slave.toNat address true
        s).2)

/-- The branch `_FC_WRITE_MULTIPLE_REGISTERS`: the byte count at offset 5 is not
looked at. -/
def replyWriteMultiple (env : Platform) (b : Backend) (q : Nat → UInt8) (slave : UInt8)
    (address nb : Nat) (s : Rtu) : List UInt8 × Rtu :=
  if nb < 1 ∨ modbusMaxWriteRegisters < nb then (responseException b q slave 16 3, s)
  else if address + nb > maxRegisterNum then (responseException b q slave 16 2, s)
  else
    (b.sendMsgPre (b.buildResponseBasis q slave 16 ++
        (List.range 4).map fun k => q (b.headerLength + 1 + k)),
      (mapModbusWriteRegisters env (queryWords q (b.headerLength + 6)) nb slave.toNat address true
        s).2)

/-- `modbus_reply`: the bytes sent, if any, and the unit. -/
def modbusReply (env : Platform) (b : Backend) (q : Nat → UInt8) (reqLength : Nat) (s : Rtu) :
    Option (List UInt8) × Rtu :=
  let offset := b.headerLength
  let slave := q (offset - 1)
  let function := q offset
  let address := be16 (q (offset + 1)) (q (offset + 2))
  let nb := be16 (q (offset + 3)) (q (offset + 4))
  if slave.toNat < 1 ∨ slave.toNat > maxWellNum then (none, s)
  else if function = 3 then (some (replyRead env b q slave address nb s), s)
  else if function = 6 then
    let r := replyWriteSingle env b q slave address (b.preparedLength reqLength) s
    (some r.1, r.2)
  else if function = 16 then
    let r := replyWriteMultiple env b q slave address nb s
    (some r.1, r.2)
  else (some (responseException b q slave function 1), s)

/-! ### `check_confirmation` -/

/-- `compute_response_length_from_request`; `none` for `MSG_LENGTH_UNDEFINED`. -/
def computeResponseLengthFromRequest (b : Backend) (q : Nat → UInt8) : Option Nat :=
  let offset := b.headerLength
  let f := q offset
  let nb := be16 (q (offset + 3)) (q (offset + 4))
  if f = 17 then none
  else
    let length :=
      if f = 1 ∨ f = 2 then 2 + nb / 8 + (if nb % 8 = 0 then 0 else 1)
      else if f = 23 ∨ f = 3 ∨ f = 4 then 2 + 2 * nb
      else if f = 7 then 3
      else 5
    some (offset + length + b.checksumLength)

/-- What the master concludes. -/
inductive Verdict where
  /-- The return value of a reply taken as good. -/
  | success (n : Nat)
  /-- An exception reply, with its code. -/
  | exception (code : UInt8)
  /-- A reply it cannot make sense of. -/
  | badData
  deriving DecidableEq, Repr

/-- The count a request names, for a reply with its function. -/
def reqNbValue (b : Backend) (q : Nat → UInt8) (rsp : List UInt8) : Nat :=
  let offset := b.headerLength
  let f := rsp.getD offset 0
  let nb := be16 (q (offset + 3)) (q (offset + 4))
  if f = 1 ∨ f = 2 then nb / 8 + (if nb % 8 = 0 then 0 else 1)
  else if f = 23 ∨ f = 3 ∨ f = 4 ∨ f = 15 ∨ f = 16 then nb
  else if f = 17 then (rsp.getD (offset + 1) 0).toNat
  else 1

/-- The count the reply carries. -/
def rspNbValue (b : Backend) (rsp : List UInt8) : Nat :=
  let offset := b.headerLength
  let f := rsp.getD offset 0
  if f = 1 ∨ f = 2 then (rsp.getD (offset + 1) 0).toNat
  else if f = 23 ∨ f = 3 ∨ f = 4 then (rsp.getD (offset + 1) 0).toNat / 2
  else if f = 15 ∨ f = 16 then be16 (rsp.getD (offset + 3) 0) (rsp.getD (offset + 4) 0)
  else if f = 17 then (rsp.getD (offset + 1) 0).toNat
  else 1

/-- `pre_check_confirmation`: a TCP reply repeats the transaction identifier. -/
def preCheckConfirmation (b : Backend) (q : Nat → UInt8) (rsp : List UInt8) : Bool :=
  match b with
  | .rtu => true
  | .tcp => q 0 == rsp.getD 0 0 && q 1 == rsp.getD 1 0

/-- `check_confirmation`. -/
def checkConfirmation (b : Backend) (q : Nat → UInt8) (rsp : List UInt8) : Verdict :=
  let offset := b.headerLength
  if !preCheckConfirmation b q rsp then .badData
  else if computeResponseLengthFromRequest b q = none ∨
      computeResponseLengthFromRequest b q = some rsp.length then
    if rsp.getD offset 0 ≠ q offset then .badData
    else if reqNbValue b q rsp = rspNbValue b rsp then .success (rspNbValue b rsp)
    else .badData
  else if rsp.length = offset + 2 + b.checksumLength ∧
      (q offset).toNat + 0x80 = (rsp.getD offset 0).toNat then
    .exception (rsp.getD (offset + 1) 0)
  else .badData

/-- The master's side of an exchange: `receive_msg` on the reply's bytes, then
`check_confirmation`. A reply it cannot receive is bad data too. -/
def masterVerdict (b : Backend) (arrive : Nat → Nat) (q : Nat → UInt8) (reply : List UInt8) :
    Verdict :=
  match receiveMsg b .confirmation arrive reply with
  | none => .badData
  | some rsp => checkConfirmation b q rsp

/-! ### Lengths -/

@[simp] theorem buildResponseBasis_length (b : Backend) (q : Nat → UInt8) (slave f : UInt8) :
    (b.buildResponseBasis q slave f).length = b.headerLength + 1 := by
  cases b <;> rfl

@[simp] theorem sendMsgPre_length (b : Backend) (rsp : List UInt8) :
    (b.sendMsgPre rsp).length = rsp.length + b.checksumLength := by
  cases b <;> simp [Backend.sendMsgPre, Backend.checksumLength]

/-- What is sent out passes the receiver's check. -/
theorem checkIntegrity_sendMsgPre (b : Backend) (rsp : List UInt8) :
    b.checkIntegrity (b.sendMsgPre rsp) = true := by
  cases b with
  | tcp => rfl
  | rtu => simp [Backend.checkIntegrity, Backend.sendMsgPre]

@[simp] theorem responseException_length (b : Backend) (q : Nat → UInt8) (slave f code : UInt8) :
    (responseException b q slave f code).length = b.headerLength + 2 + b.checksumLength := by
  simp [responseException]

/-- A read within the limits answers with as many words as it was asked for. -/
theorem mapModbusReadRegisters_of_ok {env : Platform} {s : Rtu} {nb w address : Nat} {bigL : Bool}
    (hw : 1 ≤ w) (hw8 : w ≤ maxWellNum) (hn : 1 ≤ nb) (hlen : address + nb ≤ maxRegisterNum) :
    mapModbusReadRegisters env s nb w address bigL
      = some (modbusReadLoop env s w bigL nb address 0xFFFF) := by
  unfold maxWellNum at hw8
  unfold maxRegisterNum at hlen
  unfold mapModbusReadRegisters
  rw [if_pos (registerArgsOk_iff.2 (by omega))]
  simp

theorem replyRead_length {env : Platform} {b : Backend} {q : Nat → UInt8} {slave : UInt8}
    {address nb : Nat} {s : Rtu} (hw : 1 ≤ slave.toNat) (hw8 : slave.toNat ≤ maxWellNum)
    (hn : 1 ≤ nb) (hmax : nb ≤ modbusMaxReadRegisters) (hlen : address + nb ≤ maxRegisterNum) :
    (replyRead env b q slave address nb s).length
      = b.headerLength + 2 + 2 * nb + b.checksumLength := by
  unfold replyRead
  rw [if_neg (by omega), if_neg (by omega)]
  dsimp only
  rw [mapModbusReadRegisters_of_ok hw hw8 hn hlen]
  simp [modbusReadLoop_length]
  omega

/-! ### Contents -/

/-- Sending leaves the bytes outside the TCP length field as they are. -/
theorem getD_sendMsgPre {b : Backend} {rsp : List UInt8} {i : Nat} {d : UInt8}
    (hi : i < rsp.length) (htcp : b = .tcp → i ≠ 4 ∧ i ≠ 5) :
    (b.sendMsgPre rsp).getD i d = rsp.getD i d := by
  cases b with
  | rtu => exact List.getD_append _ _ _ _ hi
  | tcp =>
      obtain ⟨h4, h5⟩ := htcp rfl
      unfold Backend.sendMsgPre
      simp only [List.getD_eq_getElem?_getD]
      rw [List.getElem?_set_ne (Ne.symm h5), List.getElem?_set_ne (Ne.symm h4)]

theorem getD_buildResponseBasis_function {b : Backend} {q : Nat → UInt8} {slave f : UInt8}
    {rest : List UInt8} {d : UInt8} :
    (b.buildResponseBasis q slave f ++ rest).getD b.headerLength d = f := by
  cases b <;> rfl

/-- A byte after the response basis. -/
theorem getD_buildResponseBasis_rest {b : Backend} {q : Nat → UInt8} {slave f : UInt8}
    {rest : List UInt8} {k : Nat} {d : UInt8} :
    (b.buildResponseBasis q slave f ++ rest).getD (b.headerLength + 1 + k) d = rest.getD k d := by
  rw [List.getD_append_right _ _ _ _ (by simp)]
  simp

theorem headerLength_ne {b : Backend} {k : Nat} :
    b = .tcp → b.headerLength + k ≠ 4 ∧ b.headerLength + k ≠ 5 := by
  rintro rfl
  exact ⟨by simp [Backend.headerLength]; omega, by simp [Backend.headerLength]; omega⟩

/-- A byte after the header, in the frame as sent. -/
theorem getD_reply_rest {b : Backend} {q : Nat → UInt8} {slave f : UInt8} {rest : List UInt8}
    {k : Nat} {d : UInt8} (hk : k < rest.length) :
    (b.sendMsgPre (b.buildResponseBasis q slave f ++ rest)).getD (b.headerLength + 1 + k) d
      = rest.getD k d := by
  rw [getD_sendMsgPre (by simp; omega) (by rw [Nat.add_assoc]; exact headerLength_ne),
    getD_buildResponseBasis_rest]

theorem getD_reply_function {b : Backend} {q : Nat → UInt8} {slave f : UInt8}
    {rest : List UInt8} {d : UInt8} :
    (b.sendMsgPre (b.buildResponseBasis q slave f ++ rest)).getD b.headerLength d = f := by
  rw [getD_sendMsgPre (i := b.headerLength) (by simp; omega) (headerLength_ne (k := 0)),
    getD_buildResponseBasis_function]

theorem responseException_function {b : Backend} {q : Nat → UInt8} {slave f code d : UInt8} :
    (responseException b q slave f code).getD b.headerLength d = f + 0x80 :=
  getD_reply_function

theorem responseException_code {b : Backend} {q : Nat → UInt8} {slave f code d : UInt8} :
    (responseException b q slave f code).getD (b.headerLength + 1) d = code :=
  getD_reply_rest (k := 0) Nat.zero_lt_one

/-! ### What a request is due -/

/-- What a read of `nb` registers is due. -/
def dueRead (address nb : Nat) : Verdict :=
  if nb < 1 ∨ modbusMaxReadRegisters < nb then .exception 3
  else if address + nb > maxRegisterNum then .exception 2
  else .success nb

/-- What a write of one register is due. -/
def dueWriteSingle (address : Nat) : Verdict :=
  if address ≥ maxRegisterNum then .exception 2 else .success 1

/-- What a write of `nb` registers is due. -/
def dueWriteMultiple (address nb : Nat) : Verdict :=
  if nb < 1 ∨ modbusMaxWriteRegisters < nb then .exception 3
  else if address + nb > maxRegisterNum then .exception 2
  else .success nb

/-- What an answered request is due: the quantity it asks for where `modbus_reply`
carries it out, else the code of the exception it answers with. -/
def dueVerdict (b : Backend) (q : Nat → UInt8) : Verdict :=
  let offset := b.headerLength
  let address := be16 (q (offset + 1)) (q (offset + 2))
  let nb := be16 (q (offset + 3)) (q (offset + 4))
  if q offset = 3 then dueRead address nb
  else if q offset = 6 then dueWriteSingle address
  else if q offset = 16 then dueWriteMultiple address nb
  else .exception 1

/-- A refused read answers with its exception. -/
theorem replyRead_exception {env : Platform} {b : Backend} {q : Nat → UInt8} {slave : UInt8}
    {address nb : Nat} {s : Rtu} {c : UInt8} (h : dueRead address nb = .exception c) :
    replyRead env b q slave address nb s = responseException b q slave 3 c := by
  unfold dueRead at h
  unfold replyRead
  split at h
  · rename_i hc
    rw [if_pos hc, ← Verdict.exception.inj h]
  · rename_i hc
    rw [if_neg hc]
    split at h
    · rename_i hc'
      rw [if_pos hc', ← Verdict.exception.inj h]
    · cases h

theorem dueRead_success {address nb n : Nat} (h : dueRead address nb = .success n) :
    n = nb ∧ 1 ≤ nb ∧ nb ≤ modbusMaxReadRegisters ∧ address + nb ≤ maxRegisterNum := by
  unfold dueRead at h
  split at h
  · cases h
  · split at h
    · cases h
    · exact ⟨(Verdict.success.inj h).symm, by omega, by omega, by omega⟩

/-- Exception 3 is the answer to a bad count alone. -/
theorem dueRead_eq_three_iff {address nb : Nat} :
    dueRead address nb = .exception 3 ↔ nb < 1 ∨ modbusMaxReadRegisters < nb := by
  unfold dueRead
  split
  · rename_i h
    exact ⟨fun _ => h, fun _ => rfl⟩
  · rename_i h
    refine ⟨fun hd => ?_, fun hc => absurd hc h⟩
    split at hd
    · exact absurd (Verdict.exception.inj hd) (by decide)
    · cases hd

theorem dueRead_ne_badData {address nb : Nat} : dueRead address nb ≠ .badData := by
  unfold dueRead
  split
  · simp
  · split <;> simp

/-- The answer to a read tells what it was due: an exception is two bytes after
the header, its code the second, and a read is longer, by what it reads. -/
theorem dueRead_of_replyRead_eq {env : Platform} {b : Backend} {q q' : Nat → UInt8} {slave : UInt8}
    {a a' nb nb' : Nat} {s : Rtu} (hw : 1 ≤ slave.toNat) (hw8 : slave.toNat ≤ maxWellNum)
    (h : replyRead env b q slave a nb s = replyRead env b q' slave a' nb' s) :
    dueRead a nb = dueRead a' nb' := by
  -- the length of a plain reply gives its count, and no exception is as long
  have hlen : ∀ {q : Nat → UInt8} {a nb n : Nat}, dueRead a nb = .success n → n = nb ∧ 1 ≤ nb ∧
      (replyRead env b q slave a nb s).length
        = b.headerLength + 2 + 2 * nb + b.checksumLength := by
    intro q a nb n hd
    obtain ⟨hn, h1, hmax, hend⟩ := dueRead_success hd
    exact ⟨hn, h1, replyRead_length hw hw8 h1 hmax hend⟩
  cases hd : dueRead a nb with
  | badData => exact absurd hd dueRead_ne_badData
  | exception c =>
      rw [replyRead_exception hd] at h
      cases hd' : dueRead a' nb' with
      | badData => exact absurd hd' dueRead_ne_badData
      | exception c' =>
          rw [replyRead_exception hd'] at h
          have hcode := congrArg (fun r => r.getD (b.headerLength + 1) 0) h
          simp only [responseException_code] at hcode
          rw [hcode]
      | success n' =>
          obtain ⟨-, hn', hl'⟩ := hlen (q := q') hd'
          have hl := congrArg List.length h
          rw [hl', responseException_length] at hl
          omega
  | success n =>
      obtain ⟨rfl, hn, hl⟩ := hlen (q := q) hd
      have hll := congrArg List.length h
      cases hd' : dueRead a' nb' with
      | badData => exact absurd hd' dueRead_ne_badData
      | exception c' =>
          rw [replyRead_exception hd', hl, responseException_length] at hll
          omega
      | success n' =>
          obtain ⟨rfl, hn', hl'⟩ := hlen (q := q') hd'
          rw [hl, hl'] at hll
          rw [show n = n' from by omega]

end RtuA118
