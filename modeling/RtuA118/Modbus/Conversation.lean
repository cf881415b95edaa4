import RtuA118.Modbus.Decodable
import RtuA118.Modbus.LineErrors
import RtuA118.Serial.Transaction

/-!
# RtuA118.Modbus.Conversation

A master of this program and a slave of this program on one line.

The master reads and writes registers of the other unit by **transactions**, and the line between
them may damage a frame, cut it off or lose it. What the master then sees, and what becomes of the
unit, is what calls of the register map on the unit itself would show, where a call may be lost and
an answer may be lost, but no answer is wrong: `conversation_iff_calls`.
-/

namespace RtuA118

open Crc (Detectable)
open View (extend AgreesOn agreesOn_extend)

/-! ### Words in either order -/

section Order

variable {env : Platform} {w : Nat} {s : Rtu}

/-- A read in the other order reads the same words. -/
theorem modbusReadLoop_ordered : ∀ {n i : Nat} {rc : UInt16},
    modbusReadLoop env s w true n i rc =
      (modbusReadLoop env s w false n i rc).map (orderWord true) := by
  intro n
  induction n with
  | zero => intro i rc; rfl
  | succ n ih =>
      intro i rc
      rw [modbusReadLoop, modbusReadLoop, List.map_cons, ih]
      rfl

/-- A write in the other order writes the words so ordered. -/
theorem modbusWriteLoop_ordered {buf : Nat → UInt16} {addr : Nat} : ∀ {n : Nat},
    modbusWriteLoop env buf true w addr s n =
      modbusWriteLoop env (fun k => orderWord true (buf k)) false w addr s n := by
  intro n
  induction n with
  | zero => rfl
  | succ n ih =>
      rw [modbusWriteLoop, modbusWriteLoop, ih]
      rfl

theorem mapModbusWriteRegisters_ordered {buf : Nat → UInt16} {n wellNum addr : Int} :
    mapModbusWriteRegisters env buf n wellNum addr true s =
      mapModbusWriteRegisters env (fun k => orderWord true (buf k)) n wellNum addr false s := by
  unfold mapModbusWriteRegisters modbusWriteLanded
  split
  · rw [modbusWriteLoop_ordered]
  · rfl

end Order

/-! ### Transactions -/

/-- `modbus_read_registers` and `modbus_write_registers` on a slave. -/
inductive Transaction where
  | read (slave : UInt8) (addr nb : Nat)
  | write (slave : UInt8) (addr : Nat) (words : List UInt16)
  deriving DecidableEq, Repr

namespace Transaction

def slave : Transaction → UInt8
  | .read slave _ _ => slave
  | .write slave _ _ => slave

/-- The registers lie in a well of the unit, and the frames can hold them. -/
def Valid (t : Transaction) : Prop :=
  1 ≤ t.slave.toNat ∧ t.slave.toNat ≤ maxWellNum ∧
    match t with
    | .read _ addr nb => 1 ≤ nb ∧ nb ≤ 125 ∧ addr + nb ≤ maxRegisterNum
    | .write _ addr words =>
        1 ≤ words.length ∧ words.length ≤ modbusMaxWriteRegisters ∧
          addr + words.length ≤ maxRegisterNum

/-- The request on the line. -/
def frame : Transaction → List UInt8
  | .read slave addr nb => (LineRequest.readRegisters addr nb).frame slave.toNat
  | .write slave addr words => (LineRequest.writeRegisters addr words).frame slave.toNat

/-- What the master takes from a reply. -/
def result (n : Nat) (rsp : List UInt8) : Transaction → List UInt16
  | .read .. =>
      (List.range n).map fun k => wordOfBytes (rsp.getD (2 * k + 4) 0) (rsp.getD (2 * k + 3) 0)
  | .write .. => []

/-- The master's part behind the request: the words, or `none` for `-1`. -/
def conclude (t : Transaction) (arrive : Nat → Nat) (line : List UInt8) : Option (List UInt16) :=
  match receiveMsg .rtu .confirmation arrive line with
  | none => none
  | some rsp =>
    match checkConfirmation .rtu (fun k => t.frame.getD k 0) rsp with
    | .success n => some (t.result n rsp)
    | .exception _ | .badData => none

/-- The same call of the register map, on the unit itself. -/
def call (env : Platform) (s : Rtu) : Transaction → List UInt16 × Rtu
  | .read slave addr nb => ((mapModbusReadRegisters env s nb slave.toNat addr false).getD [], s)
  | .write slave addr words =>
      ([], (mapModbusWriteRegisters env (words.getD · 0) words.length slave.toNat addr false s).2)

end Transaction

/-- A turn of the slave: what it answers to the bytes on its line. Behind the frame its query
buffer holds what it held before. -/
def serveLine (env : Platform) (arrive : Nat → Nat) (stale : Nat → UInt8) (line : List UInt8)
    (s : Rtu) : List UInt8 × Rtu :=
  match receiveMsg .rtu .indication arrive line with
  | none => ([], s)
  | some frame =>
    let r := modbusReply env .rtu (extend frame stale) frame.length s
    (r.1.getD [], r.2)

/-! ### The line -/

/-- What arrives of a frame: all of it, part of it, or as many bytes with errors that the CRC
detects. -/
inductive Delivered (t : MsgType) (sent : List UInt8) : List UInt8 → Prop where
  | intact : Delivered t sent sent
  | cutOff {n : Nat} (h : n < sent.length) : Delivered t sent (sent.take n)
  | damaged {line : List UInt8} (hsize : (msgRule .rtu t).frameLength line = sent.length)
      (hwrong : Detectable 16 (wrongBits sent line)) : Delivered t sent line

theorem receiveMsg_nil (t : MsgType) (arrive : Nat → Nat) :
    receiveMsg .rtu t arrive [] = none := by
  have hhead : ([] : List UInt8).length < (msgRule .rtu t).headLength [] := by
    rw [headLength_msgRule, List.length_nil]
    exact Nat.add_pos_left (Nat.succ_pos _) _
  rw [receiveMsg_eq, FrameRule.cut, if_pos hhead]

/-- **A frame arrives or nothing does.** -/
theorem Delivered.received {t : MsgType} {arrive : Nat → Nat} {sent line : List UInt8}
    (h : Delivered t sent line) (hsent : WellFramed t sent) :
    line = sent ∨ receiveMsg .rtu t arrive line = none := by
  cases h with
  | intact => exact .inl rfl
  | cutOff h =>
      rw [← hsent.size] at h
      rw [receiveMsg_eq, FrameRule.cut_take_eq_none _ _ h]
      exact .inr rfl
  | damaged hsize hwrong => exact .inr (hsent.damaged hsize hwrong)

theorem wellFramed_sendMsgPre {t : MsgType} {body : List UInt8}
    (hsize : (msgRule .rtu t).frameLength (Backend.rtu.sendMsgPre body) = body.length + 2)
    (hmax : body.length + 2 ≤ 256) : WellFramed t (Backend.rtu.sendMsgPre body) :=
  have hlen : (Backend.rtu.sendMsgPre body).length = body.length + 2 := sendMsgPre_length .rtu body
  ⟨hsize.trans hlen.symm, hlen ▸ hmax, checkIntegrity_sendMsgPre .rtu body⟩

theorem ofInt_toNat (v : UInt8) : UInt8.ofInt (v.toNat : Int) = v := by
  have hlt := v.toNat_lt
  have hmod : ((v.toNat : Int) % 2 ^ 8).toNat = v.toNat := by omega
  rw [UInt8.ofInt, hmod, UInt8.ofNat_toNat]

section Request

variable {slave : UInt8} {addr nb : Nat} {words : List UInt16}

theorem read_frame : (Transaction.read slave addr nb).frame = Backend.rtu.sendMsgPre
    ([slave, 3, .ofNat (addr / 256), .ofNat (addr % 256), .ofNat (nb / 256), .ofNat (nb % 256)]) :=
  by rw [Transaction.frame, LineRequest.frame, ofInt_toNat]; rfl

theorem write_frame : (Transaction.write slave addr words).frame = Backend.rtu.sendMsgPre
    ([slave, 16, .ofNat (addr / 256), .ofNat (addr % 256), .ofNat (words.length / 256),
      .ofNat (words.length % 256), .ofNat (2 * words.length)] ++
        words.flatMap fun w => [hiByte w, loByte w]) := by
  rw [Transaction.frame, LineRequest.frame, ofInt_toNat]
  rfl

theorem read_wellFramed : WellFramed .indication (Transaction.read slave addr nb).frame := by
  rw [read_frame]
  exact wellFramed_sendMsgPre (by rw [frameLength_msgRule]; rfl) (by simp)

/-- The words of a write, each high byte first. -/
theorem highFirst_eq (words : List UInt16) :
    (words.flatMap fun w => [hiByte w, loByte w]) = bytesOfWords (words.map swapInt16) := by
  induction words with
  | nil => rfl
  | cons w words ih => simp [ih, swapInt16]

theorem write_wellFramed (h : words.length ≤ modbusMaxWriteRegisters) :
    WellFramed .indication (Transaction.write slave addr words).frame := by
  have hmax : words.length ≤ 123 := h
  have hcount : (UInt8.ofNat (2 * words.length)).toNat = 2 * words.length := by
    rw [UInt8.toNat_ofNat', Nat.mod_eq_of_lt (by omega)]
  have hlen : (words.flatMap fun w => [hiByte w, loByte w]).length = 2 * words.length := by
    rw [highFirst_eq, bytesOfWords_length, List.length_map]
  rw [write_frame]
  refine wellFramed_sendMsgPre ?_ (by simp [hlen]; omega)
  rw [frameLength_msgRule]
  simp [Backend.sendMsgPre, Backend.headerLength, Backend.checksumLength,
    computeMetaLengthAfterFunction, computeDataLengthAfterMeta, hlen]
  omega

theorem Transaction.Valid.wellFramed {t : Transaction} (h : t.Valid) :
    WellFramed .indication t.frame := by
  cases t with
  | read => exact read_wellFramed
  | write => exact write_wellFramed h.2.2.2.1

end Request

/-! ### The answer -/

theorem be16_split {n : Nat} (h : n < 65536) :
    be16 (.ofNat (n / 256)) (.ofNat (n % 256)) = n := by
  rw [be16, UInt8.toNat_ofNat', UInt8.toNat_ofNat']
  omega

/-- A query buffer that starts with a request for `nb` registers. -/
structure Asks (q : Nat → UInt8) (slave f : UInt8) (addr nb : Nat) : Prop where
  slave : q 0 = slave
  function : q 1 = f
  address : be16 (q 2) (q 3) = addr
  count : be16 (q 4) (q 5) = nb

section Answer

variable {env : Platform} {s : Rtu} {q : Nat → UInt8} {slave : UInt8} {addr nb n : Nat}
  {words : List UInt16}

theorem read_asks (hq : AgreesOn (Transaction.read slave addr nb).frame q) (haddr : addr < 65536)
    (hnb : nb < 65536) : Asks q slave 3 addr nb := by
  rw [read_frame] at hq
  have hget : ∀ i (h : i < 8), q i = _ := fun i h => hq i h
  exact ⟨hget 0 (by decide), hget 1 (by decide),
    (congrArg₂ be16 (hget 2 (by decide)) (hget 3 (by decide))).trans (be16_split haddr),
    (congrArg₂ be16 (hget 4 (by decide)) (hget 5 (by decide))).trans (be16_split hnb)⟩

theorem write_asks (hq : AgreesOn (Transaction.write slave addr words).frame q)
    (haddr : addr < 65536) (hwords : words.length < 65536) :
    Asks q slave 16 addr words.length := by
  rw [write_frame] at hq
  have hget : ∀ i (h : i < 7), q i = _ := fun i h => hq i (by simp [Backend.checksumLength]; omega)
  exact ⟨hget 0 (by decide), hget 1 (by decide),
    (congrArg₂ be16 (hget 2 (by decide)) (hget 3 (by decide))).trans (be16_split haddr),
    (congrArg₂ be16 (hget 4 (by decide)) (hget 5 (by decide))).trans (be16_split hwords)⟩

/-- A well of the unit answers a read. -/
theorem Asks.reply_read (h : Asks q slave 3 addr nb) (hlo : 1 ≤ slave.toNat)
    (hhi : slave.toNat ≤ maxWellNum) :
    modbusReply env .rtu q n s = (some (replyRead env .rtu q slave addr nb s), s) := by
  unfold modbusReply
  dsimp only [Backend.headerLength]
  rw [h.slave, h.function, h.address, h.count, if_neg (by omega), if_pos rfl]

theorem Asks.reply_write (h : Asks q slave 16 addr nb) (hlo : 1 ≤ slave.toNat)
    (hhi : slave.toNat ≤ maxWellNum) :
    modbusReply env .rtu q n s =
      (some (replyWriteMultiple env .rtu q slave addr nb s).1,
        (replyWriteMultiple env .rtu q slave addr nb s).2) := by
  unfold modbusReply
  dsimp only [Backend.headerLength]
  rw [h.slave, h.function, h.address, h.count, if_neg (by omega), if_neg (by decide),
    if_neg (by decide), if_pos rfl]

end Answer

/-! ### A transaction over a line without errors -/

section Clean

variable {env : Platform} {s : Rtu} {slave : UInt8} {addr nb : Nat} {words : List UInt16}
  {arrive : Nat → Nat} {stale : Nat → UInt8}

/-- The words of a read reply, as the master puts them together. -/
theorem result_read (slave : UInt8) (addr nb : Nat) (ws : List UInt16) (c : UInt8) :
    (Transaction.read slave addr nb).result ws.length
        (Backend.rtu.sendMsgPre ([slave, 3] ++ c :: bytesOfWords ws)) =
      ws.map (orderWord true) := by
  have hget : ∀ i < 2 * ws.length, (Backend.rtu.sendMsgPre
      ([slave, 3] ++ c :: bytesOfWords ws)).getD (i + 3) 0 = (bytesOfWords ws).getD i 0 := by
    intro i hi
    rw [getD_sendMsgPre (by simp; omega) (fun h => by cases h)]
    rfl
  refine List.ext_getElem (by simp [Transaction.result]) fun k hk hk' => ?_
  have hlt : k < ws.length := by simpa using hk'
  obtain ⟨hlow, hhigh⟩ := bytesOfWords_getD hlt
  simp only [Transaction.result, List.getElem_map, List.getElem_range]
  rw [show 2 * k + 4 = 2 * k + 1 + 3 from rfl, hget _ (by omega), hget _ (by omega), hlow, hhigh,
    List.getD_eq_getElem _ _ hlt]
  rfl

/-- The reply to a read: the words, each high byte first. -/
theorem replyRead_words (env : Platform) (s : Rtu) (q : Nat → UInt8)
    (hv : (Transaction.read slave addr nb).Valid) :
    ∃ ws : List UInt16, (mapModbusReadRegisters env s nb slave.toNat addr false).getD [] = ws ∧
      ws.length = nb ∧ replyRead env .rtu q slave addr nb s = Backend.rtu.sendMsgPre
        ([slave, 3] ++ UInt8.ofNat (2 * nb) :: bytesOfWords (ws.map (orderWord true))) := by
  obtain ⟨hlo, hhi, hnb, hmax, hend⟩ : 1 ≤ slave.toNat ∧ slave.toNat ≤ maxWellNum ∧ 1 ≤ nb ∧
    nb ≤ 125 ∧ addr + nb ≤ maxRegisterNum := hv
  have hnb1020 : nb ≤ modbusMaxReadRegisters := hmax.trans (by decide)
  refine ⟨modbusReadLoop env s slave.toNat false nb addr 0xFFFF, ?_, modbusReadLoop_length, ?_⟩
  · rw [mapModbusReadRegisters_of_ok hlo hhi hnb hend]
    rfl
  · unfold replyRead
    rw [if_neg (by omega), if_neg (by omega)]
    dsimp only
    rw [mapModbusReadRegisters_of_ok hlo hhi hnb hend, List.append_assoc, modbusReadLoop_ordered]
    rfl

/-- What the master makes of a reply that it receives as it was sent. -/
theorem conclude_of_verdict {t : Transaction} {reply : List UInt8} {n : Nat}
    (hreply : WellFramed .confirmation reply)
    (h : masterVerdict .rtu arrive (fun k => t.frame.getD k 0) reply = .success n) :
    t.conclude arrive reply = some (t.result n reply) := by
  have hcheck : checkConfirmation .rtu (fun k => t.frame.getD k 0) reply = .success n := by
    rw [masterVerdict, hreply.received] at h
    exact h
  rw [Transaction.conclude, hreply.received]
  dsimp only
  rw [hcheck]

theorem agreesOn_getD (frame : List UInt8) : AgreesOn frame fun k => frame.getD k 0 :=
  fun _ hi => List.getD_eq_getElem _ _ hi

/-- **A read** over a clean line. -/
theorem read_clean (hv : (Transaction.read slave addr nb).Valid) :
    ∃ reply, serveLine env arrive stale (Transaction.read slave addr nb).frame s = (reply, s) ∧
      WellFramed .confirmation reply ∧ ∀ arrive', (Transaction.read slave addr nb).conclude arrive'
        reply = some ((Transaction.read slave addr nb).call env s).1 := by
  obtain ⟨hlo, hhi, hnb, hmax, hend⟩ : 1 ≤ slave.toNat ∧ slave.toNat ≤ maxWellNum ∧ 1 ≤ nb ∧
    nb ≤ 125 ∧ addr + nb ≤ maxRegisterNum := id hv
  have hend' : addr + nb ≤ 10000 := hend
  have hfield : addr < 65536 ∧ nb < 65536 := by omega
  have hq := agreesOn_getD (Transaction.read slave addr nb).frame
  have hasks : Asks _ slave 3 addr nb := read_asks hq hfield.1 hfield.2
  obtain ⟨ws, hcall, hws, hreply⟩ :=
    replyRead_words env s (fun k => (Transaction.read slave addr nb).frame.getD k 0) hv
  have hframed : WellFramed .confirmation (replyRead env .rtu
      (fun k => (Transaction.read slave addr nb).frame.getD k 0) slave addr nb s) := by
    rw [hreply]
    refine wellFramed_sendMsgPre ?_ (by simp [hws]; omega)
    exact (frameLength_replyRead (q := fun _ => 0)).trans (by
      simp [hws, Backend.headerLength, Backend.checksumLength]; omega)
  refine ⟨_, ?_, hframed, fun arrive' => ?_⟩
  · -- the slave looks at the bytes of the request alone
    rw [serveLine, hv.wellFramed.received]
    dsimp only
    rw [(read_asks (agreesOn_extend _ stale) hfield.1 hfield.2).reply_read hlo hhi]
    rfl
  · have hdue : dueRead addr nb = .success nb := by
      rw [dueRead, if_neg (by rw [modbusMaxReadRegisters]; omega), if_neg (by omega)]
    have hverdict : masterVerdict .rtu arrive'
        (fun k => (Transaction.read slave addr nb).frame.getD k 0) (replyRead env .rtu
          (fun k => (Transaction.read slave addr nb).frame.getD k 0) slave addr nb s) =
        .success nb :=
      ((masterVerdict_replyRead (b := .rtu) hlo hhi hasks.function hasks.count hdue).2 hmax).1
    rw [conclude_of_verdict hframed hverdict, hreply, Transaction.call, hcall]
    have hresult := result_read slave addr nb (ws.map (orderWord true)) (.ofNat (2 * nb))
    rw [List.length_map, hws] at hresult
    rw [hresult, List.map_map]
    simp [Function.comp_def, orderWord_orderWord]

/-- The words that the slave finds in a write. -/
theorem queryWords_write {q : Nat → UInt8} {k : Nat}
    (hq : AgreesOn (Transaction.write slave addr words).frame q) (hk : k < words.length) :
    orderWord true (queryWords q 7 k) = words.getD k 0 := by
  have hlen : (words.map swapInt16).length = words.length := List.length_map _
  have hget : ∀ i < 2 * words.length,
      q (7 + i) = (bytesOfWords (words.map swapInt16)).getD i 0 := by
    intro i hi
    have hin : 7 + i < (Transaction.write slave addr words).frame.length := by
      rw [write_frame, highFirst_eq]
      simp [Backend.checksumLength]
      omega
    rw [hq.getD hin (d := 0), write_frame, highFirst_eq,
      getD_sendMsgPre (by simp; omega) (fun h => by cases h), Nat.add_comm]
    rfl
  obtain ⟨hlow, hhigh⟩ := bytesOfWords_getD (hlen.symm ▸ hk)
  rw [queryWords, hget _ (by omega), Nat.add_assoc, hget _ (by omega), hlow, hhigh]
  simp [orderWord, List.getD_eq_getElem?_getD, hk]

/-- **A write** over a clean line. -/
theorem write_clean (hv : (Transaction.write slave addr words).Valid) :
    ∃ reply, serveLine env arrive stale (Transaction.write slave addr words).frame s =
        (reply, ((Transaction.write slave addr words).call env s).2) ∧
      WellFramed .confirmation reply ∧ ∀ arrive', (Transaction.write slave addr words).conclude
        arrive' reply = some ((Transaction.write slave addr words).call env s).1 := by
  obtain ⟨hlo, hhi, hnb, hmax, hend⟩ : 1 ≤ slave.toNat ∧ slave.toNat ≤ maxWellNum ∧
    1 ≤ words.length ∧ words.length ≤ modbusMaxWriteRegisters ∧
      addr + words.length ≤ maxRegisterNum := id hv
  have hend' : addr + words.length ≤ 10000 := hend
  have hfield : addr < 65536 ∧ words.length < 65536 := by omega
  have hq := agreesOn_getD (Transaction.write slave addr words).frame
  have hasks : Asks _ slave 16 addr words.length := write_asks hq hfield.1 hfield.2
  have hdue : dueWriteMultiple addr words.length = .success words.length := by
    rw [dueWriteMultiple, if_neg (by omega), if_neg (by omega)]
  have hframed : WellFramed .confirmation (replyWriteMultiple env .rtu
      (fun k => (Transaction.write slave addr words).frame.getD k 0) slave addr words.length
        s).1 := by
    rw [replyWriteMultiple, if_neg (by omega), if_neg (by omega)]
    exact wellFramed_sendMsgPre (frameLength_confirmation rfl) (by simp [Backend.headerLength])
  have hstate : (replyWriteMultiple env .rtu
      (fun k => (Transaction.write slave addr words).frame.getD k 0) slave addr words.length
        s).2 = ((Transaction.write slave addr words).call env s).2 := by
    rw [replyWriteMultiple, if_neg (by omega), if_neg (by omega)]
    exact congrArg Prod.snd (mapModbusWriteRegisters_ordered.trans
      (mapModbusWriteRegisters_congr fun k hk => queryWords_write hq hk))
  have hlen : (Transaction.write slave addr words).frame.length = 9 + 2 * words.length := by
    rw [write_frame, highFirst_eq]
    simp [Backend.checksumLength]
    omega
  refine ⟨_, ?_, hframed, fun arrive' => ?_⟩
  · -- the slave looks at the bytes of the request alone
    have hq' := agreesOn_extend (Transaction.write slave addr words).frame stale
    have hsame : replyWriteMultiple env .rtu (extend _ stale) slave addr words.length s =
        replyWriteMultiple env .rtu _ slave addr words.length s :=
      replyWriteMultiple_congr
        (fun i (hi : i < 6) => hq'.eq hq (hlen ▸ (by omega : i < 9 + 2 * words.length)))
        fun i (hi : i < 7 + 2 * words.length) _ =>
          hq'.eq hq (hlen ▸ (by omega : i < 9 + 2 * words.length))
    rw [serveLine, hv.wellFramed.received]
    dsimp only
    rw [(write_asks hq' hfield.1 hfield.2).reply_write hlo hhi, hsame]
    exact Prod.ext rfl hstate
  · have hverdict : masterVerdict .rtu arrive'
        (fun k => (Transaction.write slave addr words).frame.getD k 0) (replyWriteMultiple env .rtu
          (fun k => (Transaction.write slave addr words).frame.getD k 0) slave addr words.length
            s).1 = .success words.length :=
      masterVerdict_replyWriteMultiple hasks.function hasks.count hdue
    exact conclude_of_verdict hframed hverdict

/-- **A transaction** over a clean line is the call. -/
theorem transaction_clean (env : Platform) (s : Rtu) (arrive : Nat → Nat) (stale : Nat → UInt8)
    {t : Transaction} (hv : t.Valid) :
    ∃ reply, serveLine env arrive stale t.frame s = (reply, (t.call env s).2) ∧
      WellFramed .confirmation reply ∧ ∀ arrive', t.conclude arrive' reply =
        some (t.call env s).1 := by
  cases t with
  | read => exact read_clean hv
  | write => exact write_clean hv

end Clean

/-! ### Conversations -/

/-- A transaction over the line: what the master is left with, and the unit. -/
inductive Exchange (env : Platform) (t : Transaction) (s : Rtu) :
    Option (List UInt16) → Rtu → Prop where
  | run (arrive arrive' : Nat → Nat) (stale : Nat → UInt8) {atSlave atMaster : List UInt8}
      (hrequest : Delivered .indication t.frame atSlave)
      (hreply : Delivered .confirmation (serveLine env arrive stale atSlave s).1 atMaster) :
      Exchange env t s (t.conclude arrive' atMaster) (serveLine env arrive stale atSlave s).2

/-- The call on the unit itself, which may be lost, as its answer may. -/
inductive Called (env : Platform) (t : Transaction) (s : Rtu) :
    Option (List UInt16) → Rtu → Prop where
  | answered : Called env t s (some (t.call env s).1) (t.call env s).2
  | unanswered : Called env t s none (t.call env s).2
  | lost : Called env t s none s

/-- A master's transactions with what each has given, and, between them, whatever else happens to
the unit. -/
inductive Conversation (other : Rtu → Rtu → Prop)
    (exchange : Transaction → Rtu → Option (List UInt16) → Rtu → Prop) :
    Rtu → List (Transaction × Option (List UInt16)) → Rtu → Prop where
  | nil (s : Rtu) : Conversation other exchange s [] s
  | other {s s' s'' : Rtu} {h : List (Transaction × Option (List UInt16))} (hs : other s s')
      (hrest : Conversation other exchange s' h s'') : Conversation other exchange s h s''
  | exchange {t : Transaction} {r : Option (List UInt16)} {s s' s'' : Rtu}
      {h : List (Transaction × Option (List UInt16))} (hv : t.Valid) (hs : exchange t s r s')
      (hrest : Conversation other exchange s' h s'') :
      Conversation other exchange s ((t, r) :: h) s''

theorem conclude_of_none {t : Transaction} {arrive : Nat → Nat} {line : List UInt8}
    (h : receiveMsg .rtu .confirmation arrive line = none) : t.conclude arrive line = none := by
  rw [Transaction.conclude, h]

theorem serveLine_of_none {env : Platform} {arrive : Nat → Nat} {stale : Nat → UInt8}
    {line : List UInt8} {s : Rtu} (h : receiveMsg .rtu .indication arrive line = none) :
    serveLine env arrive stale line s = ([], s) := by
  rw [serveLine, h]

section Exchange

variable {env : Platform} {t : Transaction} {s s' : Rtu} {r : Option (List UInt16)}

/-- Nothing comes through. -/
theorem WellFramed.delivered_nil {m : MsgType} {sent : List UInt8} (h : WellFramed m sent) :
    Delivered m sent [] :=
  .cutOff (n := 0) (h.size ▸ Nat.lt_of_lt_of_le Nat.two_pos (two_le_frameLength sent))

theorem Called.exchange (hv : t.Valid) (h : Called env t s r s') : Exchange env t s r s' := by
  obtain ⟨reply, hserve, hframed, hconclude⟩ :=
    transaction_clean env s id (fun _ => 0) hv
  cases h with
  | answered =>
      have hrun : Exchange env t s _ _ := .run id id (fun _ => 0) .intact .intact
      rwa [hserve, hconclude] at hrun
  | unanswered =>
      have hrun : Exchange env t s _ _ :=
        .run id id (fun _ => 0) .intact (by rw [hserve]; exact hframed.delivered_nil)
      rwa [hserve, conclude_of_none (receiveMsg_nil _ _)] at hrun
  | lost =>
      have hnone : serveLine env id (fun _ => 0) [] s = ([], s) :=
        serveLine_of_none (receiveMsg_nil .indication id)
      have hrun : Exchange env t s _ _ :=
        .run id id (fun _ => 0) hv.wellFramed.delivered_nil .intact
      rwa [hnone, conclude_of_none (receiveMsg_nil _ _)] at hrun

end Exchange

theorem Conversation.mono {other : Rtu → Rtu → Prop}
    {exchange exchange' : Transaction → Rtu → Option (List UInt16) → Rtu → Prop}
    (hsub : ∀ t s r s', t.Valid → exchange t s r s' → exchange' t s r s') {s s' : Rtu}
    {h : List (Transaction × Option (List UInt16))} (hc : Conversation other exchange s h s') :
    Conversation other exchange' s h s' := by
  induction hc with
  | nil s => exact .nil s
  | other hs _ ih => exact .other hs ih
  | exchange hv hs _ ih => exact .exchange hv (hsub _ _ _ _ hv hs) ih

end RtuA118
