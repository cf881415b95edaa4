import RtuA118.Modbus.Reads
import RtuA118.Modbus.RequestBytes

/-!
# RtuA118.Modbus.Guards

The range tests of `modbus_reply` against those of the register map behind it.

The protocol layer and the map test the same range in different words, and
`modbus_reply` ignores what the map returns: a read the map refused would send
whatever the stack held. `replyReadInto` keeps that memory in sight. The two
layers agree (`carriedOut_of_reply`): a request that gets past the first is never
refused by the second, and one that does not **changes nothing**.
-/

namespace RtuA118

/-! ### The fields of a request -/

def reqSlave (b : Backend) (q : Nat → UInt8) : UInt8 := q (b.headerLength - 1)
def reqFunction (b : Backend) (q : Nat → UInt8) : UInt8 := q b.headerLength

def reqAddress (b : Backend) (q : Nat → UInt8) : Nat :=
  be16 (q (b.headerLength + 1)) (q (b.headerLength + 2))

def reqNb (b : Backend) (q : Nat → UInt8) : Nat :=
  be16 (q (b.headerLength + 3)) (q (b.headerLength + 4))

/-! ### The reply buffer of a read -/

/-- The read branch in its buffer `rsp`, which held `tmp`: the length sent counts
`2 * nb` bytes whether or not the map has written them. -/
def replyReadInto (tmp : Nat → UInt8) (env : Platform) (b : Backend) (q : Nat → UInt8)
    (slave : UInt8) (address nb : Nat) (s : Rtu) : List UInt8 :=
  let basis := b.buildResponseBasis q slave 3
  let rsp := putBytes (putBytes tmp 0 basis) basis.length [UInt8.ofNat (2 * nb)]
  let rsp :=
    match mapModbusReadRegisters env s nb slave.toNat address true with
    | some ws => putBytes rsp (basis.length + 1) (bytesOfWords ws)
    | none => rsp
  b.sendMsgPre (bytesOf rsp (basis.length + 1 + 2 * nb))

/-- What the map has read fills it. -/
theorem replyReadInto_eq {tmp : Nat → UInt8} {env : Platform} {b : Backend} {q : Nat → UInt8}
    {slave : UInt8} {address nb : Nat} {s : Rtu} {ws : List UInt16}
    (hread : mapModbusReadRegisters env s nb slave.toNat address true = some ws)
    (hlen : ws.length = nb) :
    replyReadInto tmp env b q slave address nb s =
      b.sendMsgPre (b.buildResponseBasis q slave 3 ++ [UInt8.ofNat (2 * nb)] ++
        bytesOfWords ws) := by
  have hbytes : (bytesOfWords ws).length = 2 * nb := by simp [hlen]
  have hn : (b.buildResponseBasis q slave 3).length + 1 + 2 * nb =
      (b.buildResponseBasis q slave 3 ++ [UInt8.ofNat (2 * nb)] ++ bytesOfWords ws).length := by
    rw [List.length_append, List.length_append, hbytes]
    rfl
  unfold replyReadInto
  rw [hread]
  dsimp only
  rw [putBytes_putBytes, hn]
  have hk : (b.buildResponseBasis q slave 3).length + 1 =
      (b.buildResponseBasis q slave 3 ++ [UInt8.ofNat (2 * nb)]).length := by
    simp
  rw [hk, putBytes_putBytes, bytesOf_putBytes]

/-! ### What a reply tells -/

/-- An exception reply to the request in `q`. -/
def IsException (b : Backend) (q : Nat → UInt8) (reply : List UInt8) : Prop :=
  ∃ code, reply = responseException b q (reqSlave b q) (reqFunction b q) code

/-- The request is carried out: the map has not refused it, and a read reply is made
of what the map has put there, whatever the buffer held. -/
inductive CarriedOut (env : Platform) (b : Backend) (q : Nat → UInt8) (n : Nat) (s : Rtu)
    (reply : List UInt8) : Rtu → Prop where
  | read {ws : List UInt16} : reqFunction b q = 3 →
    mapModbusReadRegisters env s (reqNb b q) (reqSlave b q).toNat (reqAddress b q) true = some ws →
    ws.length = reqNb b q →
    (∀ tmp, reply = replyReadInto tmp env b q (reqSlave b q) (reqAddress b q) (reqNb b q) s) →
    CarriedOut env b q n s reply s
  | writeSingle {s' : Rtu} : reqFunction b q = 6 →
    reply = b.sendMsgPre ((List.range (b.preparedLength n)).map q) →
    mapModbusWriteRegisters env (queryWords q (b.headerLength + 3)) 1 (reqSlave b q).toNat
      (reqAddress b q) true s = (0, s') →
    CarriedOut env b q n s reply s'
  | writeMultiple {s' : Rtu} : reqFunction b q = 16 →
    reply = b.sendMsgPre (b.buildResponseBasis q (reqSlave b q) 16 ++
      (List.range 4).map fun k => q (b.headerLength + 1 + k)) →
    mapModbusWriteRegisters env (queryWords q (b.headerLength + 6)) (reqNb b q)
      (reqSlave b q).toNat (reqAddress b q) true s = (0, s') →
    CarriedOut env b q n s reply s'

section Guards

variable {env : Platform} {b : Backend} {q : Nat → UInt8} {n : Nat} {s : Rtu}

/-- The tests of `modbus_reply` are enough for `map_modbus_write_registers`. -/
theorem mapModbusWriteRegisters_of_ok {buf : Nat → UInt16} {nb w address : Nat} {bigL : Bool}
    {s : Rtu} (hw : 1 ≤ w) (hw8 : w ≤ maxWellNum) (hn : 1 ≤ nb)
    (hlen : address + nb ≤ maxRegisterNum) :
    ∃ s', mapModbusWriteRegisters env buf nb w address bigL s = (0, s') := by
  unfold mapModbusWriteRegisters
  rw [modbusWriteLanded_of_ok hw hw8 hn hlen]
  exact ⟨_, rfl⟩

/-- What the three branches do past their tests. -/
theorem replyRead_success {slave : UInt8} {address nb : Nat} {ws : List UInt16}
    (hread : mapModbusReadRegisters env s nb slave.toNat address true = some ws) (hn : 1 ≤ nb)
    (hmax : nb ≤ modbusMaxReadRegisters) (hend : address + nb ≤ maxRegisterNum) :
    replyRead env b q slave address nb s =
      b.sendMsgPre (b.buildResponseBasis q slave 3 ++ [UInt8.ofNat (2 * nb)] ++
        bytesOfWords ws) := by
  unfold replyRead
  rw [if_neg (by omega), if_neg (by omega), hread]
  rfl

theorem replyWriteSingle_success {slave : UInt8} {address reqLength : Nat}
    (hlt : address < maxRegisterNum) :
    replyWriteSingle env b q slave address reqLength s =
      (b.sendMsgPre ((List.range reqLength).map q),
        (mapModbusWriteRegisters env (queryWords q (b.headerLength + 3)) 1 slave.toNat address true
          s).2) := by
  unfold replyWriteSingle
  rw [if_neg (by omega)]

theorem replyWriteMultiple_success {slave : UInt8} {address nb : Nat} (hn : 1 ≤ nb)
    (hmax : nb ≤ modbusMaxWriteRegisters) (hend : address + nb ≤ maxRegisterNum) :
    replyWriteMultiple env b q slave address nb s =
      (b.sendMsgPre (b.buildResponseBasis q slave 16 ++
          (List.range 4).map fun k => q (b.headerLength + 1 + k)),
        (mapModbusWriteRegisters env (queryWords q (b.headerLength + 6)) nb slave.toNat address true
          s).2) := by
  unfold replyWriteMultiple
  rw [if_neg (by omega), if_neg (by omega)]

theorem dueWriteMultiple_ne_badData {address nb : Nat} :
    dueWriteMultiple address nb ≠ .badData := by
  unfold dueWriteMultiple
  split
  · simp
  · split <;> simp

theorem dueWriteMultiple_success {address nb m : Nat}
    (h : dueWriteMultiple address nb = .success m) :
    1 ≤ nb ∧ nb ≤ modbusMaxWriteRegisters ∧ address + nb ≤ maxRegisterNum := by
  unfold dueWriteMultiple at h
  split at h
  · cases h
  · split at h
    · cases h
    · omega

/-- A request that is carried out is not answered with an exception. -/
theorem CarriedOut.not_exception {reply : List UInt8} {s' : Rtu}
    (h : CarriedOut env b q n s reply s') : ¬ IsException b q reply := by
  rintro ⟨code, hcode⟩
  have hfun := congrArg (fun r => r.getD b.headerLength 0) hcode
  have hlen := congrArg List.length hcode
  rw [responseException_function] at hfun
  rw [responseException_length] at hlen
  cases h with
  | read h3 hread hws hreply =>
      rw [hreply q, replyReadInto_eq hread hws, List.append_assoc, getD_reply_function, h3] at hfun
      exact absurd hfun (by decide)
  | writeMultiple h16 hreply _ =>
      rw [hreply, getD_reply_function, h16] at hfun
      exact absurd hfun (by decide)
  | writeSingle h6 hreply _ =>
      -- an echo as long as an exception has its function byte
      rw [hreply, sendMsgPre_length, List.length_map, List.length_range] at hlen
      have hbyte : (b.sendMsgPre ((List.range (b.preparedLength n)).map q)).getD b.headerLength 0
          = q b.headerLength := by
        rw [getD_sendMsgPre (i := b.headerLength) (by simp; omega) (headerLength_ne (k := 0))]
        simp [List.getD_eq_getElem?_getD, show b.headerLength < b.preparedLength n by omega]
      unfold reqFunction at h6 hfun
      rw [hreply, hbyte, h6] at hfun
      exact absurd hfun (by decide)

variable (hw : 1 ≤ (reqSlave b q).toNat) (hw8 : (reqSlave b q).toNat ≤ maxWellNum)

include hw hw8

/-- **A reply is an exception that changes nothing, or the request is carried out.** -/
theorem exception_or_carriedOut {reply : List UInt8} {s' : Rtu}
    (h : modbusReply env b q n s = (some reply, s')) :
    IsException b q reply ∧ s' = s ∨ CarriedOut env b q n s reply s' := by
  have hu :
      ¬ ((q (b.headerLength - 1)).toNat < 1 ∨ (q (b.headerLength - 1)).toNat > maxWellNum) := by
    unfold reqSlave at hw hw8
    omega
  -- the four branches of the source: 0x03, 0x06, 0x10 and any other function
  by_cases h3 : q b.headerLength = 3
  · rw [modbusReply_read hu h3] at h
    obtain ⟨hreply, rfl⟩ := Prod.mk.inj h
    obtain rfl := Option.some.inj hreply
    cases hd : dueRead (reqAddress b q) (reqNb b q) with
    | badData => exact absurd hd dueRead_ne_badData
    | exception c =>
        refine .inl ⟨⟨c, ?_⟩, rfl⟩
        rw [reqFunction, h3]
        exact replyRead_exception hd
    | success m =>
        obtain ⟨-, hn, hmax, hend⟩ := dueRead_success hd
        have hread : mapModbusReadRegisters env s (reqNb b q) (reqSlave b q).toNat (reqAddress b q)
            true = some _ := mapModbusReadRegisters_of_ok hw hw8 hn hend
        refine .inr (.read h3 hread modbusReadLoop_length fun tmp => ?_)
        rw [replyReadInto_eq hread modbusReadLoop_length]
        exact replyRead_success hread hn hmax hend
  by_cases h6 : q b.headerLength = 6
  · rw [modbusReply_writeSingle hu h6] at h
    obtain ⟨hreply, rfl⟩ := Prod.mk.inj h
    obtain rfl := Option.some.inj hreply
    rcases Nat.lt_or_ge (reqAddress b q) maxRegisterNum with hlt | hge
    · -- a single register inside the table is always stored
      obtain ⟨s', hs'⟩ : ∃ s', mapModbusWriteRegisters env (queryWords q (b.headerLength + 3)) 1
          (reqSlave b q).toNat (reqAddress b q) true s = (0, s') :=
        mapModbusWriteRegisters_of_ok hw hw8 (Nat.le_refl 1) hlt
      have hdone : replyWriteSingle env b q (reqSlave b q) (reqAddress b q) (b.preparedLength n) s
          = (b.sendMsgPre ((List.range (b.preparedLength n)).map q), s') := by
        rw [replyWriteSingle_success hlt, hs']
      have hsnd := congrArg Prod.snd hdone
      exact .inr (.writeSingle h6 (congrArg Prod.fst hdone)
        (hs'.trans (congrArg (Prod.mk 0) hsnd.symm)))
    · refine .inl ⟨⟨2, ?_⟩, ?_⟩
      · rw [reqFunction, h6]
        exact congrArg Prod.fst (replyWriteSingle_exception hge)
      · exact congrArg Prod.snd (replyWriteSingle_exception hge)
  by_cases h16 : q b.headerLength = 16
  · rw [modbusReply_writeMultiple hu h16] at h
    obtain ⟨hreply, rfl⟩ := Prod.mk.inj h
    obtain rfl := Option.some.inj hreply
    cases hd : dueWriteMultiple (reqAddress b q) (reqNb b q) with
    | badData => exact absurd hd dueWriteMultiple_ne_badData
    | exception c =>
        refine .inl ⟨⟨c, ?_⟩, ?_⟩
        · rw [reqFunction, h16]
          exact congrArg Prod.fst (replyWriteMultiple_exception hd)
        · exact congrArg Prod.snd (replyWriteMultiple_exception hd)
    | success m =>
        obtain ⟨hn, hmax, hend⟩ := dueWriteMultiple_success hd
        obtain ⟨s', hs'⟩ : ∃ s', mapModbusWriteRegisters env (queryWords q (b.headerLength + 6))
            (reqNb b q) (reqSlave b q).toNat (reqAddress b q) true s = (0, s') :=
          mapModbusWriteRegisters_of_ok hw hw8 hn hend
        have hdone : replyWriteMultiple env b q (reqSlave b q) (reqAddress b q) (reqNb b q) s
            = (b.sendMsgPre (b.buildResponseBasis q (reqSlave b q) 16 ++
                (List.range 4).map fun k => q (b.headerLength + 1 + k)), s') := by
          rw [replyWriteMultiple_success hn hmax hend, hs']
        have hsnd := congrArg Prod.snd hdone
        exact .inr (.writeMultiple h16 (congrArg Prod.fst hdone)
          (hs'.trans (congrArg (Prod.mk 0) hsnd.symm)))
  · rw [modbusReply_other hu ⟨h3, h6, h16⟩] at h
    obtain ⟨hreply, rfl⟩ := Prod.mk.inj h
    exact .inl ⟨⟨1, (Option.some.inj hreply).symm⟩, rfl⟩

/-- The longest reply is a read of as many registers as may be asked for. -/
theorem reply_length_le {reply : List UInt8} {s' : Rtu} (hn : n ≤ b.maxAduLength)
    (h : modbusReply env b q n s = (some reply, s')) : reply.length ≤ 2300 := by
  have hu :
      ¬ ((q (b.headerLength - 1)).toNat < 1 ∨ (q (b.headerLength - 1)).toNat > maxWellNum) := by
    unfold reqSlave at hw hw8
    omega
  -- every exception, echo and head is far shorter than a full read
  have hhead : b.headerLength ≤ 7 ∧ b.checksumLength ≤ 2 ∧ n ≤ 260 := by
    cases b with
    | rtu => exact ⟨by decide, by decide, Nat.le_trans hn (by decide)⟩
    | tcp => exact ⟨by decide, by decide, hn⟩
  have hexc : ∀ f code, (responseException b q (reqSlave b q) f code).length ≤ 2300 := by
    intro f code
    rw [responseException_length]
    omega
  by_cases h3 : q b.headerLength = 3
  · rw [modbusReply_read hu h3] at h
    obtain rfl := Option.some.inj (Prod.mk.inj h).1
    cases hd : dueRead (reqAddress b q) (reqNb b q) with
    | badData => exact absurd hd dueRead_ne_badData
    | exception c => exact replyRead_exception hd ▸ hexc 3 c
    | success m =>
        obtain ⟨-, h1, hmax, hend⟩ := dueRead_success hd
        have hlen : (replyRead env b q (reqSlave b q) (reqAddress b q) (reqNb b q) s).length
            = b.headerLength + 2 + 2 * reqNb b q + b.checksumLength :=
          replyRead_length hw hw8 h1 hmax hend
        unfold modbusMaxReadRegisters at hmax
        exact Nat.le_trans (Nat.le_of_eq hlen) (by omega)
  by_cases h6 : q b.headerLength = 6
  · rw [modbusReply_writeSingle hu h6] at h
    obtain rfl := Option.some.inj (Prod.mk.inj h).1
    unfold replyWriteSingle
    split
    · exact hexc 6 2
    · simp [Backend.preparedLength]
      omega
  by_cases h16 : q b.headerLength = 16
  · rw [modbusReply_writeMultiple hu h16] at h
    obtain rfl := Option.some.inj (Prod.mk.inj h).1
    unfold replyWriteMultiple
    split
    · exact hexc 16 3
    split
    · exact hexc 16 2
    · simp
      omega
  · rw [modbusReply_other hu ⟨h3, h6, h16⟩] at h
    obtain rfl := Option.some.inj (Prod.mk.inj h).1
    exact hexc _ 1

end Guards

/-! ### What gets past the guards -/

/-- A frame that a front end passes on is no longer than the backend's limit. -/
theorem FrontEnd.Accepts.length_le {fe : FrontEnd} {frame : List UInt8} (h : fe.Accepts frame) :
    frame.length ≤ fe.backend.maxAduLength := by
  cases fe with
  | udp => exact h.2.1
  | rtu =>
      obtain ⟨_, _, h⟩ := h
      obtain ⟨rfl, -, hmax, -⟩ := receiveMsg_frame h
      exact Nat.le_trans (List.length_take_le _ _) hmax
  | tcp =>
      obtain ⟨_, _, h⟩ := h
      obtain ⟨rfl, -, hmax, -⟩ := receiveMsg_frame h
      exact Nat.le_trans (List.length_take_le _ _) hmax

/-- **The guards of `modbus_reply`**, for every request no longer than the limit of
its backend, whatever its bytes are. -/
theorem modbusReply_guards (env : Platform) (b : Backend) (q : Nat → UInt8) {n : Nat}
    (hn : n ≤ b.maxAduLength) (s : Rtu) :
    ((reqSlave b q).toNat < 1 ∨ maxWellNum < (reqSlave b q).toNat →
      modbusReply env b q n s = (none, s)) ∧
    ∀ reply s', modbusReply env b q n s = (some reply, s') →
      (IsException b q reply → s' = s) ∧
      (¬ IsException b q reply → CarriedOut env b q n s reply s') ∧
      reply.length ≤ 2300 := by
  refine ⟨fun hu => modbusReply_ignored hu, fun reply s' h => ?_⟩
  have hu : ¬ ((reqSlave b q).toNat < 1 ∨ maxWellNum < (reqSlave b q).toNat) := by
    intro hu
    rw [modbusReply_ignored hu] at h
    cases h
  have hw : 1 ≤ (reqSlave b q).toNat := by omega
  have hw8 : (reqSlave b q).toNat ≤ maxWellNum := by omega
  refine ⟨fun hex => ?_, fun hex => ?_, reply_length_le hw hw8 hn h⟩
  · rcases exception_or_carriedOut hw hw8 h with ⟨-, hs⟩ | hdone
    · exact hs
    · exact absurd hex hdone.not_exception
  · rcases exception_or_carriedOut hw hw8 h with ⟨hex', -⟩ | hdone
    · exact absurd hex' hex
    · exact hdone

/-- A datagram for unit 9 does nothing in any state, a write of register 10000 is
refused and changes nothing, and a read of two registers is carried out. -/
theorem modbusReply_guards_udp :
    (∀ s, modbusReply (.bare fun _ => none) .tcp (fun k => [0, 1, 0, 0, 0, 6, 9, 3].getD k 0) 8 s =
      (none, s)) ∧
    (∀ s, (modbusReply (.bare fun _ => none) .tcp
      (fun k => [0, 1, 0, 0, 0, 6, 1, 6, 0x27, 0x10, 0, 7].getD k 0) 12 s).2 = s) ∧
    ∀ s, ∃ reply, CarriedOut (.bare fun _ => none) .tcp
      (fun k => [0, 1, 0, 0, 0, 6, 1, 3, 0, 0, 0, 2].getD k 0) 12 s reply s := by
  have hother : FrontEnd.udp.Accepts [0, 1, 0, 0, 0, 6, 9, 3] := ⟨by decide, by decide, by decide⟩
  have hwrite : FrontEnd.udp.Accepts [0, 1, 0, 0, 0, 6, 1, 6, 0x27, 0x10, 0, 7] :=
    ⟨by decide, by decide, by decide⟩
  have hread : FrontEnd.udp.Accepts [0, 1, 0, 0, 0, 6, 1, 3, 0, 0, 0, 2] :=
    ⟨by decide, by decide, by decide⟩
  refine ⟨fun s => ?_, fun s => ?_, fun s => ?_⟩
  · exact (modbusReply_guards _ .tcp _ hother.length_le s).1 (by decide)
  · obtain ⟨hexc, -, -⟩ := (modbusReply_guards (.bare fun _ => none) .tcp
      (fun k => [0, 1, 0, 0, 0, 6, 1, 6, 0x27, 0x10, 0, 7].getD k 0) hwrite.length_le s).2 _ _ rfl
    exact hexc ⟨2, rfl⟩
  · obtain ⟨-, hdone, -⟩ := (modbusReply_guards (.bare fun _ => none) .tcp
      (fun k => [0, 1, 0, 0, 0, 6, 1, 3, 0, 0, 0, 2].getD k 0) hread.length_le s).2 _ _ rfl
    refine ⟨_, hdone ?_⟩
    rintro ⟨code, hcode⟩
    -- an exception is shorter than two registers
    have hlen := congrArg List.length hcode
    rw [responseException_length, replyRead_length (by decide) (by decide) (by decide) (by decide)
      (by decide)] at hlen
    exact absurd hlen (by decide)

end RtuA118
