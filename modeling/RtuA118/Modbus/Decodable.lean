import RtuA118.Modbus.RequestBytes

/-!
# RtuA118.Modbus.Decodable

Does this program's own master understand the answers of its slave? The reply of
`modbus_reply` goes through `receive_msg` in confirmation mode and
`check_confirmation`.

A reply is **decodable** when the verdict is the one the request is due, a read
reply's count byte counts the bytes after it, and an exception reply has the high
bit of its function byte set. `MasterReads` is the exact condition on the
request: the read limit was raised over what a one-byte count and a frame hold,
and an exception is not told from a plain reply of the same length.
-/

namespace RtuA118

open View (AgreesOn)

/-! ### The property and the condition -/

/-- The master makes of the reply what the slave made of the request. -/
structure Decodable (b : Backend) (arrive : Nat → Nat) (q : Nat → UInt8) (reply : List UInt8) :
    Prop where
  verdict : masterVerdict b arrive q reply = dueVerdict b q
  count : ∀ nb, q b.headerLength = 3 → dueVerdict b q = .success nb →
    (reply.getD (b.headerLength + 1) 0).toNat = 2 * nb ∧
      reply.length = b.headerLength + 2 + 2 * nb + b.checksumLength
  highBit : ∀ c, dueVerdict b q = .exception c → 128 ≤ (reply.getD b.headerLength 0).toNat

/-- A read is answered in one frame, or refused over more than an empty count; a
short write request is not echoed; an exception's own function byte and length
are not those of some plain reply. -/
def MasterReads (b : Backend) (n : Nat) (q : Nat → UInt8) : Prop :=
  let o := b.headerLength
  let f := q o
  let address := be16 (q (o + 1)) (q (o + 2))
  let nb := be16 (q (o + 3)) (q (o + 4))
  if f = 3 then
    1 ≤ nb ∧ (nb ≤ 125 ∨ modbusMaxReadRegisters < nb ∨ maxRegisterNum < address + nb)
  else if f = 6 then maxRegisterNum ≤ address ∨ o + 5 + b.checksumLength ≤ n
  else if f = 16 then True
  else f < 128 ∧ f ≠ 17 ∧ (f = 1 ∨ f = 2 ∨ f = 4 ∨ f = 23 → nb ≠ 0)

/-! ### What the master receives -/

section Received

variable {b : Backend} {arrive : Nat → Nat} {rsp : List UInt8}

/-- Of a stream that holds the frame its head promises, the receiver takes that. -/
theorem receiveMsg_take {stream : List UInt8} {n : Nat}
    (hn : (msgRule b .confirmation).frameLength stream = n) (hlen : n ≤ stream.length)
    (hmax : n ≤ b.maxAduLength) (hint : b.checkIntegrity (stream.take n) = true) :
    receiveMsg b .confirmation arrive stream = some (stream.take n) := by
  have hhead : (msgRule b .confirmation).headLength stream
      ≤ (msgRule b .confirmation).frameLength stream := by
    unfold FrameRule.frameLength
    omega
  have hadu : (msgRule b .confirmation).maxAduLength = b.maxAduLength := rfl
  subst hn
  rw [receiveMsg_eq]
  unfold FrameRule.cut
  rw [if_neg (by omega), if_neg (by omega), if_neg (by omega)]
  dsimp only
  rw [if_pos hint]

/-- A reply as long as its own bytes say is received whole. -/
theorem receiveMsg_sendMsgPre
    (hlen : (msgRule b .confirmation).frameLength (b.sendMsgPre rsp)
      = rsp.length + b.checksumLength)
    (hmax : rsp.length + b.checksumLength ≤ b.maxAduLength) :
    receiveMsg b .confirmation arrive (b.sendMsgPre rsp) = some (b.sendMsgPre rsp) := by
  have hall : (b.sendMsgPre rsp).length = rsp.length + b.checksumLength := sendMsgPre_length b rsp
  have htake : (b.sendMsgPre rsp).take (rsp.length + b.checksumLength) = b.sendMsgPre rsp :=
    List.take_of_length_le (by omega)
  rw [receiveMsg_take hlen (by omega) hmax (by rw [htake]; exact checkIntegrity_sendMsgPre b rsp),
    htake]

/-- A reply whose bytes promise more than a frame holds, or than there is, is not
received. -/
theorem receiveMsg_refused {stream : List UInt8}
    (h : b.maxAduLength < (msgRule b .confirmation).frameLength stream ∨
      stream.length < (msgRule b .confirmation).frameLength stream) :
    receiveMsg b .confirmation arrive stream = none := by
  cases hr : receiveMsg b .confirmation arrive stream with
  | none => rfl
  | some frame =>
      obtain ⟨-, hlen, hadu, -⟩ := receiveMsg_frame hr
      omega

end Received

/-- The length of a reply as its function byte and count byte say. -/
theorem frameLength_confirmation {b : Backend} {stream : List UInt8} {g : UInt8}
    (hg : stream.getD b.headerLength 0 = g) :
    (msgRule b .confirmation).frameLength stream =
      b.headerLength + 1 + (if g = 5 ∨ g = 6 ∨ g = 15 ∨ g = 16 then 4 else 1) +
        ((if g ≤ 4 ∨ g = 17 ∨ g = 23 then stream.getD (b.headerLength + 1) 0 else 0).toNat
          + b.checksumLength) := by
  subst hg
  exact frameLength_msgRule

/-- An answer carries its request's transaction identifier. -/
theorem preCheckConfirmation_basis {b : Backend} {q : Nat → UInt8} {slave f : UInt8}
    {rest : List UInt8} :
    preCheckConfirmation b q (b.sendMsgPre (b.buildResponseBasis q slave f ++ rest)) = true := by
  cases b with
  | rtu => rfl
  | tcp => simp [preCheckConfirmation, Backend.sendMsgPre, Backend.buildResponseBasis]

/-! ### Exceptions -/

/-- A plain reply to the request would be as short as an exception. -/
def PlainIsShort (b : Backend) (q : Nat → UInt8) : Prop :=
  let f := q b.headerLength
  f = 17 ∨ (f = 1 ∨ f = 2 ∨ f = 3 ∨ f = 4 ∨ f = 23) ∧
    be16 (q (b.headerLength + 3)) (q (b.headerLength + 4)) = 0

theorem plainIsShort_iff {b : Backend} {q : Nat → UInt8} :
    (computeResponseLengthFromRequest b q = none ∨
      computeResponseLengthFromRequest b q = some (b.headerLength + 2 + b.checksumLength)) ↔
      PlainIsShort b q := by
  unfold computeResponseLengthFromRequest PlainIsShort
  dsimp only
  obtain ⟨f, hf⟩ : ∃ f, f = q b.headerLength := ⟨_, rfl⟩
  obtain ⟨nb, hnb⟩ : ∃ nb, nb = be16 (q (b.headerLength + 3)) (q (b.headerLength + 4)) := ⟨_, rfl⟩
  rw [← hf, ← hnb]
  by_cases h17 : f = 17
  · simp [h17]
  rw [if_neg h17]
  -- coils, then registers, then the functions whose reply has a fixed length
  by_cases h12 : f = 1 ∨ f = 2
  · rw [if_pos h12, Option.some.injEq]
    have hor : f = 1 ∨ f = 2 ∨ f = 3 ∨ f = 4 ∨ f = 23 := by
      rcases h12 with h | h
      · exact .inl h
      · exact .inr (.inl h)
    simp only [h17, hor, false_or, true_and, reduceCtorEq]
    split <;> omega
  rw [if_neg h12]
  by_cases h3 : f = 23 ∨ f = 3 ∨ f = 4
  · rw [if_pos h3, Option.some.injEq]
    have hor : f = 1 ∨ f = 2 ∨ f = 3 ∨ f = 4 ∨ f = 23 := by
      rcases h3 with h | h | h
      · exact .inr (.inr (.inr (.inr h)))
      · exact .inr (.inr (.inl h))
      · exact .inr (.inr (.inr (.inl h)))
    simp only [h17, hor, false_or, true_and, reduceCtorEq]
    omega
  · rw [if_neg h3, Option.some.injEq]
    have hor : ¬ (f = 1 ∨ f = 2 ∨ f = 3 ∨ f = 4 ∨ f = 23) := by
      rintro (h | h | h | h | h)
      · exact h12 (.inl h)
      · exact h12 (.inr h)
      · exact h3 (.inr (.inl h))
      · exact h3 (.inr (.inr h))
      · exact h3 (.inl h)
    simp only [h17, hor, false_or, false_and, reduceCtorEq, iff_false]
    split <;> omega

/-- An exception reply is received, with the high bit of its function byte set. -/
theorem receiveMsg_responseException (b : Backend) (arrive : Nat → Nat) (q : Nat → UInt8)
    (slave : UInt8) {f : UInt8} (c : UInt8) (hf : f < 128) :
    receiveMsg b .confirmation arrive (responseException b q slave f c)
      = some (responseException b q slave f c) ∧ f.toNat + 128 = (f + 0x80).toNat := by
  have hlt : f.toNat < 128 := hf
  have hg : f.toNat + 128 = (f + 0x80).toNat := by
    rw [UInt8.toNat_add]
    exact (Nat.mod_eq_of_lt (show f.toNat + 128 < 256 by omega)).symm
  have hne : ∀ {k : UInt8}, k.toNat < 128 → f + 0x80 ≠ k := by
    rintro k hk rfl
    omega
  have hgt : ¬ f + 0x80 ≤ 4 := by
    intro hle
    have hle' : (f + 0x80).toNat ≤ 4 := hle
    omega
  refine ⟨receiveMsg_sendMsgPre ?_ ?_, hg⟩
  · rw [frameLength_confirmation getD_reply_function,
      if_neg (by simp [hne (k := 5) (by decide), hne (k := 6) (by decide),
        hne (k := 15) (by decide), hne (k := 16) (by decide)]),
      if_neg (by simp [hgt, hne (k := 17) (by decide), hne (k := 23) (by decide)])]
    simp
  · cases b <;> simp [Backend.checksumLength, Backend.maxAduLength, Backend.headerLength]

/-- The master tells an exception from a plain reply by its length alone. -/
theorem masterVerdict_responseException {b : Backend} {arrive : Nat → Nat} {q : Nat → UInt8}
    {slave c : UInt8} (hf : q b.headerLength < 128) :
    masterVerdict b arrive q (responseException b q slave (q b.headerLength) c) = .exception c ↔
      ¬ PlainIsShort b q := by
  obtain ⟨hrecv, hg⟩ := receiveMsg_responseException b arrive q slave c hf
  unfold masterVerdict
  rw [hrecv]
  dsimp only
  unfold checkConfirmation
  dsimp only
  rw [responseException_length, responseException_function, responseException_code]
  rw [if_neg (by
    unfold responseException
    rw [preCheckConfirmation_basis]
    simp)]
  by_cases hp : PlainIsShort b q
  · rw [if_pos (plainIsShort_iff.2 hp), if_pos (show q b.headerLength + 0x80 ≠ q b.headerLength by
      intro h
      rw [h] at hg
      omega)]
    simp [hp]
  · rw [if_neg (fun h => hp (plainIsShort_iff.1 h)), if_pos ⟨rfl, hg⟩]
    simp [hp]

/-! ### Plain replies -/

/-- A received frame of the due length, function and count is taken as good. -/
theorem masterVerdict_success {b : Backend} (arrive : Nat → Nat) (q : Nat → UInt8)
    {reply rsp : List UInt8} (hrecv : receiveMsg b .confirmation arrive reply = some rsp)
    (hpre : preCheckConfirmation b q rsp = true)
    (hlen : computeResponseLengthFromRequest b q = some rsp.length)
    (hf : rsp.getD b.headerLength 0 = q b.headerLength)
    (hnb : reqNbValue b q rsp = rspNbValue b rsp) :
    masterVerdict b arrive q reply = .success (rspNbValue b rsp) := by
  unfold masterVerdict
  rw [hrecv]
  dsimp only
  unfold checkConfirmation
  dsimp only
  rw [if_neg (by rw [hpre]; simp), if_pos (.inr hlen), if_neg (not_not.2 hf), if_pos hnb]

section Plain

variable {env : Platform} {b : Backend} {arrive : Nat → Nat} {q : Nat → UInt8} {slave : UInt8}
  {s : Rtu} {address nb : Nat}

/-- A read that is carried out: a count byte, then two bytes for each register. -/
theorem replyRead_eq (hw : 1 ≤ slave.toNat) (hw8 : slave.toNat ≤ maxWellNum)
    (h : dueRead address nb = .success nb) :
    ∃ ws : List UInt16, ws.length = nb ∧ replyRead env b q slave address nb s =
      b.sendMsgPre (b.buildResponseBasis q slave 3 ++ UInt8.ofNat (2 * nb) :: bytesOfWords ws) := by
  obtain ⟨-, h1, hmax, hend⟩ := dueRead_success h
  refine ⟨modbusReadLoop env s slave.toNat true nb address 0xFFFF, modbusReadLoop_length .., ?_⟩
  unfold replyRead
  rw [if_neg (by omega), if_neg (by omega)]
  dsimp only
  rw [mapModbusReadRegisters_of_ok hw hw8 h1 hend, List.append_assoc]
  rfl

theorem frameLength_replyRead {n : UInt8} {rest : List UInt8} :
    (msgRule b .confirmation).frameLength
        (b.sendMsgPre (b.buildResponseBasis q slave 3 ++ n :: rest))
      = b.headerLength + 2 + n.toNat + b.checksumLength := by
  have hcount : (b.sendMsgPre (b.buildResponseBasis q slave 3 ++ n :: rest)).getD
      (b.headerLength + 1) 0 = n :=
    getD_reply_rest (k := 0) (Nat.succ_pos _)
  rw [frameLength_confirmation getD_reply_function, hcount, if_neg (by decide),
    if_pos (.inl (by decide))]
  omega

/-- **The read limit of the protocol** is what the master can receive. -/
theorem masterVerdict_replyRead (hw : 1 ≤ slave.toNat) (hw8 : slave.toNat ≤ maxWellNum)
    (hf : q b.headerLength = 3)
    (hnb : be16 (q (b.headerLength + 3)) (q (b.headerLength + 4)) = nb)
    (h : dueRead address nb = .success nb) :
    (masterVerdict b arrive q (replyRead env b q slave address nb s) = .success nb ∧
      ((replyRead env b q slave address nb s).getD (b.headerLength + 1) 0).toNat = 2 * nb) ↔
      nb ≤ 125 := by
  obtain ⟨ws, hws, heq⟩ : ∃ ws : List UInt16, ws.length = nb ∧ replyRead env b q slave address nb s
      = b.sendMsgPre (b.buildResponseBasis q slave 3 ++ UInt8.ofNat (2 * nb) :: bytesOfWords ws) :=
    replyRead_eq hw hw8 h
  have hcount : (replyRead env b q slave address nb s).getD (b.headerLength + 1) 0
      = UInt8.ofNat (2 * nb) := by
    rw [heq]
    exact getD_reply_rest (k := 0) (Nat.succ_pos _)
  have hmod : (UInt8.ofNat (2 * nb)).toNat = 2 * nb % 256 := UInt8.toNat_ofNat'
  rw [hcount, hmod]
  constructor
  · rintro ⟨hv, hc⟩
    by_contra hgt
    -- the count byte is right up to 127, but past 125 the frame is too long
    have hnone : receiveMsg b .confirmation arrive (replyRead env b q slave address nb s)
        = none := by
      refine receiveMsg_refused (.inl ?_)
      rw [heq, frameLength_replyRead, hmod, hc]
      cases b <;> simp [Backend.checksumLength, Backend.maxAduLength, Backend.headerLength] <;>
        omega
    unfold masterVerdict at hv
    rw [hnone] at hv
    cases hv
  · intro hle
    have hc : 2 * nb % 256 = 2 * nb := Nat.mod_eq_of_lt (by omega)
    refine ⟨?_, hc⟩
    have hlen : (b.buildResponseBasis q slave 3 ++ UInt8.ofNat (2 * nb) :: bytesOfWords ws).length
        = b.headerLength + 2 + 2 * nb := by
      rw [List.length_append, List.length_cons, buildResponseBasis_length, bytesOfWords_length, hws]
      omega
    rw [heq] at hcount ⊢
    have hrsp : rspNbValue b (b.sendMsgPre (b.buildResponseBasis q slave 3 ++
        UInt8.ofNat (2 * nb) :: bytesOfWords ws)) = nb := by
      unfold rspNbValue
      dsimp only
      rw [getD_reply_function, if_neg (by decide), if_pos (by decide), hcount, hmod, hc]
      omega
    have hsucc := masterVerdict_success arrive q
      (receiveMsg_sendMsgPre
        (by rw [frameLength_replyRead, hlen, hmod, hc])
        (by
          rw [hlen]
          cases b <;>
            simp [Backend.checksumLength, Backend.maxAduLength, Backend.headerLength] <;> omega))
      preCheckConfirmation_basis
      (by
        unfold computeResponseLengthFromRequest
        dsimp only
        rw [hf, hnb, if_neg (by decide), if_neg (by decide), if_pos (by decide), sendMsgPre_length,
          hlen]
        congr 1
        omega)
      (by rw [getD_reply_function, hf])
      (by
        rw [hrsp]
        unfold reqNbValue
        dsimp only
        rw [getD_reply_function, if_neg (by decide), if_pos (by decide), hnb])
    rw [hsucc, hrsp]

/-- A write of several registers that is carried out repeats address and count. -/
theorem masterVerdict_replyWriteMultiple (hf : q b.headerLength = 16)
    (hnb : be16 (q (b.headerLength + 3)) (q (b.headerLength + 4)) = nb)
    (h : dueWriteMultiple address nb = .success nb) :
    masterVerdict b arrive q (replyWriteMultiple env b q slave address nb s).1 = .success nb := by
  have hok : ¬ (nb < 1 ∨ modbusMaxWriteRegisters < nb) ∧ ¬ address + nb > maxRegisterNum := by
    unfold dueWriteMultiple at h
    split at h
    · cases h
    split at h
    · cases h
    · exact ⟨‹_›, ‹_›⟩
  unfold replyWriteMultiple
  rw [if_neg hok.1, if_neg hok.2]
  dsimp only
  obtain ⟨rest, hrest⟩ : ∃ rest, rest = (List.range 4).map fun k => q (b.headerLength + 1 + k) :=
    ⟨_, rfl⟩
  have hl : rest.length = 4 := by rw [hrest]; rfl
  have h2 : rest.getD 2 0 = q (b.headerLength + 3) := by rw [hrest]; rfl
  have h3 : rest.getD 3 0 = q (b.headerLength + 4) := by rw [hrest]; rfl
  rw [← hrest]
  have hlen : (b.buildResponseBasis q slave 16 ++ rest).length = b.headerLength + 5 := by
    rw [List.length_append, buildResponseBasis_length, hl]
  have hrsp : rspNbValue b (b.sendMsgPre (b.buildResponseBasis q slave 16 ++ rest)) = nb := by
    unfold rspNbValue
    dsimp only
    rw [getD_reply_function, if_neg (by decide), if_neg (by decide), if_pos (by decide),
      show b.headerLength + 3 = b.headerLength + 1 + 2 from rfl,
      show b.headerLength + 4 = b.headerLength + 1 + 3 from rfl, getD_reply_rest (by omega),
      getD_reply_rest (by omega), h2, h3, hnb]
  -- each test of `check_confirmation` is passed by the echoed address and count
  have hsucc := masterVerdict_success arrive q
    (receiveMsg_sendMsgPre
      (by
        rw [frameLength_confirmation (g := 16) getD_reply_function, if_pos (by decide),
          if_neg (by decide), hlen]
        simp)
      (by
        rw [hlen]
        cases b <;> decide))
    preCheckConfirmation_basis
    (by
      unfold computeResponseLengthFromRequest
      dsimp only
      rw [hf, if_neg (by decide), if_neg (by decide), if_neg (by decide), if_neg (by decide),
        sendMsgPre_length, hlen])
    (by rw [getD_reply_function, hf])
    (by
      rw [hrsp]
      unfold reqNbValue
      dsimp only
      rw [getD_reply_function, if_neg (by decide), if_pos (by decide), hnb])
  rw [hsucc, hrsp]

/-- A byte of an echo. -/
theorem getD_echo {m i : Nat} (hi : i < m) (htcp : b = .tcp → i ≠ 4 ∧ i ≠ 5) :
    (b.sendMsgPre ((List.range m).map q)).getD i 0 = q i := by
  rw [getD_sendMsgPre (by simpa using hi) htcp, List.getD_eq_getElem _ _ (by simpa using hi)]
  simp

/-- A write of one register that is carried out is answered by its own first `m`
bytes, and understood when the address and the value are among them. -/
theorem masterVerdict_replyWriteSingle {m : Nat} (hf : q b.headerLength = 6)
    (hm : b.headerLength < m) (hrtu : b = .rtu → m = b.headerLength + 5)
    (haddr : address < maxRegisterNum) :
    masterVerdict b arrive q (replyWriteSingle env b q slave address m s).1 = .success 1 ↔
      b.headerLength + 5 ≤ m := by
  have hfun : (b.sendMsgPre ((List.range m).map q)).getD b.headerLength 0 = 6 := by
    rw [getD_echo hm (headerLength_ne (k := 0)), hf]
  have hall : (b.sendMsgPre ((List.range m).map q)).length = m + b.checksumLength := by simp
  have hframe : (msgRule b .confirmation).frameLength (b.sendMsgPre ((List.range m).map q))
      = b.headerLength + 5 + b.checksumLength := by
    rw [frameLength_confirmation hfun, if_pos (by decide), if_neg (by decide)]
    simp
  unfold replyWriteSingle
  rw [if_neg (by omega)]
  dsimp only
  constructor
  · intro hv
    by_contra hshort
    have hnone : receiveMsg b .confirmation arrive (b.sendMsgPre ((List.range m).map q)) = none :=
      receiveMsg_refused (.inr (by omega))
    unfold masterVerdict at hv
    rw [hnone] at hv
    cases hv
  · intro hle
    obtain ⟨n, hn⟩ : ∃ n, n = b.headerLength + 5 + b.checksumLength := ⟨_, rfl⟩
    -- an RTU echo is one frame; after a TCP frame the master leaves the rest unread
    have hint : b.checkIntegrity ((b.sendMsgPre ((List.range m).map q)).take n) = true := by
      cases b with
      | tcp => rfl
      | rtu =>
          have hm5 := hrtu rfl
          rw [List.take_of_length_le (by omega)]
          exact checkIntegrity_sendMsgPre _ _
    have hget : ∀ i, i < n → ((b.sendMsgPre ((List.range m).map q)).take n).getD i 0
        = (b.sendMsgPre ((List.range m).map q)).getD i 0 := fun i hi => getD_take hi
    have hfun' : ((b.sendMsgPre ((List.range m).map q)).take n).getD b.headerLength 0 = 6 := by
      rw [hget _ (by omega), hfun]
    have hrsp : rspNbValue b ((b.sendMsgPre ((List.range m).map q)).take n) = 1 := by
      unfold rspNbValue
      dsimp only
      rw [hfun', if_neg (by decide), if_neg (by decide), if_neg (by decide), if_neg (by decide)]
    have hsucc := masterVerdict_success arrive q
      (receiveMsg_take (hframe.trans hn.symm) (by omega)
        (by
          rw [hn]
          cases b <;> decide) hint)
      (by
        cases b with
        | rtu => rfl
        | tcp =>
            unfold preCheckConfirmation
            dsimp only
            rw [hget _ (by omega), hget _ (by omega),
              getD_echo (by omega) (fun _ => by decide), getD_echo (by omega) (fun _ => by decide)]
            simp)
      (by
        unfold computeResponseLengthFromRequest
        dsimp only
        rw [hf, if_neg (by decide), if_neg (by decide), if_neg (by decide), if_neg (by decide),
          List.length_take, hall]
        congr 1
        omega)
      (by rw [hfun', hf])
      (by
        rw [hrsp]
        unfold reqNbValue
        dsimp only
        rw [hfun', if_neg (by decide), if_neg (by decide), if_neg (by decide)])
    rw [hsucc, hrsp]

end Plain

/-! ### Decodable replies -/

theorem decodable_exception_iff {b : Backend} (arrive : Nat → Nat) {q : Nat → UInt8}
    (slave : UInt8) {c : UInt8} (hd : dueVerdict b q = .exception c) :
    Decodable b arrive q (responseException b q slave (q b.headerLength) c) ↔
      q b.headerLength < 128 ∧ ¬ PlainIsShort b q := by
  constructor
  · rintro ⟨hv, -, hh⟩
    have h128 := hh c hd
    rw [responseException_function, UInt8.toNat_add] at h128
    have hlt := (q b.headerLength).toNat_lt
    have hf : q b.headerLength < 128 := by
      rw [UInt8.lt_iff_toNat_lt]
      change 128 ≤ ((q b.headerLength).toNat + 128) % 256 at h128
      change (q b.headerLength).toNat < 128
      omega
    exact ⟨hf, (masterVerdict_responseException hf).1 (hv.trans hd)⟩
  · rintro ⟨hf, hp⟩
    refine ⟨((masterVerdict_responseException hf).2 hp).trans hd.symm, fun nb _ hs => ?_,
      fun _ _ => ?_⟩
    · rw [hd] at hs
      cases hs
    · have hg := (receiveMsg_responseException b arrive q slave c hf).2
      rw [responseException_function, ← hg]
      omega

/-- An RTU request to write one register is eight bytes long. -/
theorem accepts_rtu_writeSingle_length {frame : List UInt8} (h : FrontEnd.rtu.Accepts frame)
    (hf : frame.getD 1 0 = 6) : frame.length = 8 := by
  obtain ⟨arrive, stream, h⟩ := h
  obtain ⟨rfl, hlen, -, -⟩ := receiveMsg_frame h
  have hpos : 1 < (msgRule .rtu .indication).frameLength stream := by
    rw [frameLength_msgRule]
    change 1 < 1 + 1 + _ + _
    omega
  rw [getD_take hpos] at hf
  rw [List.length_take, Nat.min_eq_left hlen, frameLength_msgRule]
  unfold computeDataLengthAfterMeta Backend.headerLength
  dsimp only
  rw [hf]
  rfl

section Functions

variable {env : Platform} {b : Backend} {arrive : Nat → Nat} {q : Nat → UInt8} {slave : UInt8}
  {s : Rtu} {n : Nat}

theorem decodable_read_iff (hw : 1 ≤ slave.toNat) (hw8 : slave.toNat ≤ maxWellNum)
    (h3 : q b.headerLength = 3) :
    Decodable b arrive q (replyRead env b q slave
        (be16 (q (b.headerLength + 1)) (q (b.headerLength + 2)))
        (be16 (q (b.headerLength + 3)) (q (b.headerLength + 4))) s) ↔ MasterReads b n q := by
  obtain ⟨address, ha⟩ : ∃ address, address = be16 (q (b.headerLength + 1))
      (q (b.headerLength + 2)) := ⟨_, rfl⟩
  obtain ⟨nb, hnb⟩ : ∃ nb, nb = be16 (q (b.headerLength + 3)) (q (b.headerLength + 4)) := ⟨_, rfl⟩
  have hdue : dueVerdict b q = dueRead address nb := by
    unfold dueVerdict
    dsimp only
    rw [if_pos h3, ← ha, ← hnb]
  unfold MasterReads
  dsimp only
  rw [if_pos h3, ← ha, ← hnb]
  cases hd : dueRead address nb with
  | badData => exact absurd hd dueRead_ne_badData
  | exception c =>
      have hiff := decodable_exception_iff arrive slave (hdue.trans hd)
      have hshort : PlainIsShort b q ↔ nb = 0 := by
        unfold PlainIsShort
        dsimp only
        rw [h3, ← hnb]
        simp
      rw [h3] at hiff
      rw [replyRead_exception hd, hiff, hshort]
      -- an exception is told apart unless no register was asked for: a plain reply is then as short
      have hrefused : (nb < 1 ∨ modbusMaxReadRegisters < nb) ∨ address + nb > maxRegisterNum := by
        unfold dueRead at hd
        split at hd
        · exact .inl ‹_›
        split at hd
        · exact .inr ‹_›
        · cases hd
      constructor
      · rintro ⟨-, h0⟩
        omega
      · rintro ⟨h1, -⟩
        exact ⟨by decide, by omega⟩
  | success m =>
      obtain ⟨rfl, h1, hmax, hend⟩ := dueRead_success hd
      have hiff : (masterVerdict b arrive q (replyRead env b q slave address m s) = .success m ∧
          ((replyRead env b q slave address m s).getD (b.headerLength + 1) 0).toNat = 2 * m) ↔
          m ≤ 125 := masterVerdict_replyRead hw hw8 h3 hnb.symm hd
      constructor
      · rintro ⟨hv, hc, -⟩
        exact ⟨h1, .inl (hiff.1 ⟨(hv.trans hdue).trans hd, (hc m h3 (hdue.trans hd)).1⟩)⟩
      · rintro ⟨-, hle⟩
        obtain ⟨hv, hc⟩ := hiff.2 (by omega)
        refine ⟨hv.trans (hdue.trans hd).symm, fun k _ hk => ?_, fun c hc => ?_⟩
        · obtain rfl : m = k := Verdict.success.inj ((hdue.trans hd).symm.trans hk)
          exact ⟨hc, replyRead_length hw hw8 h1 hmax hend⟩
        · rw [hdue, hd] at hc
          cases hc

/-- A plain reply to a write is decodable when the verdict is right. -/
theorem decodable_write_iff {reply : List UInt8} {m : Nat} (h3 : q b.headerLength ≠ 3)
    (hd : dueVerdict b q = .success m) :
    Decodable b arrive q reply ↔ masterVerdict b arrive q reply = .success m := by
  constructor
  · intro h
    exact h.verdict.trans hd
  · intro hv
    refine ⟨hv.trans hd.symm, fun _ h => absurd h h3, fun c hc => ?_⟩
    rw [hd] at hc
    cases hc

theorem decodable_writeSingle_iff (hn : b.headerLength < b.preparedLength n)
    (hrtu : b = .rtu → n = 8) (h6 : q b.headerLength = 6) :
    Decodable b arrive q (replyWriteSingle env b q slave
        (be16 (q (b.headerLength + 1)) (q (b.headerLength + 2))) (b.preparedLength n) s).1 ↔
      MasterReads b n q := by
  obtain ⟨address, ha⟩ : ∃ address, address = be16 (q (b.headerLength + 1))
      (q (b.headerLength + 2)) := ⟨_, rfl⟩
  have h3 : q b.headerLength ≠ 3 := by
    rw [h6]
    decide
  have hdue : dueVerdict b q = dueWriteSingle address := by
    unfold dueVerdict
    dsimp only
    rw [if_neg h3, if_pos h6, ← ha]
  unfold MasterReads
  dsimp only
  rw [if_neg h3, if_pos h6, ← ha]
  by_cases hrefused : maxRegisterNum ≤ address
  · have hd : dueWriteSingle address = .exception 2 := if_pos hrefused
    have hiff := decodable_exception_iff arrive slave (hdue.trans hd)
    rw [h6] at hiff
    rw [replyWriteSingle_exception hrefused, hiff]
    refine ⟨fun _ => .inl hrefused, fun _ => ⟨by decide, ?_⟩⟩
    unfold PlainIsShort
    dsimp only
    rw [h6]
    simp
  · have hd : dueWriteSingle address = .success 1 := if_neg hrefused
    have hm : b = .rtu → b.preparedLength n = b.headerLength + 5 := by
      rintro rfl
      rw [hrtu rfl]
      rfl
    -- a request cut short is echoed as short as it came
    have hprep : b.headerLength + 5 ≤ b.preparedLength n ↔
        b.headerLength + 5 + b.checksumLength ≤ n := by
      unfold Backend.preparedLength
      omega
    rw [decodable_write_iff h3 (hdue.trans hd),
      masterVerdict_replyWriteSingle h6 hn hm (by omega), hprep]
    exact ⟨.inr, fun h => h.resolve_left hrefused⟩

theorem decodable_writeMultiple (h16 : q b.headerLength = 16) :
    Decodable b arrive q (replyWriteMultiple env b q slave
        (be16 (q (b.headerLength + 1)) (q (b.headerLength + 2)))
        (be16 (q (b.headerLength + 3)) (q (b.headerLength + 4))) s).1 := by
  obtain ⟨address, ha⟩ : ∃ address, address = be16 (q (b.headerLength + 1))
      (q (b.headerLength + 2)) := ⟨_, rfl⟩
  obtain ⟨nb, hnb⟩ : ∃ nb, nb = be16 (q (b.headerLength + 3)) (q (b.headerLength + 4)) := ⟨_, rfl⟩
  have h3 : q b.headerLength ≠ 3 := by
    rw [h16]
    decide
  have hdue : dueVerdict b q = dueWriteMultiple address nb := by
    unfold dueVerdict
    dsimp only
    rw [if_neg h3, h16, if_neg (by decide), if_pos rfl, ← ha, ← hnb]
  rw [← ha, ← hnb]
  -- its arguments are refused, or all of its words are stored
  have hcases : dueWriteMultiple address nb = .success nb ∨
      ∃ c, dueWriteMultiple address nb = .exception c := by
    unfold dueWriteMultiple
    split
    · exact .inr ⟨3, rfl⟩
    split
    · exact .inr ⟨2, rfl⟩
    · exact .inl rfl
  rcases hcases with hd | ⟨c, hd⟩
  · rw [decodable_write_iff h3 (hdue.trans hd)]
    exact masterVerdict_replyWriteMultiple h16 hnb.symm hd
  · have hiff := decodable_exception_iff arrive slave (hdue.trans hd)
    rw [h16] at hiff
    rw [replyWriteMultiple_exception hd, hiff]
    refine ⟨by decide, ?_⟩
    unfold PlainIsShort
    dsimp only
    rw [h16]
    simp

theorem decodable_other_iff (h3 : q b.headerLength ≠ 3) (h6 : q b.headerLength ≠ 6)
    (h16 : q b.headerLength ≠ 16) :
    Decodable b arrive q (responseException b q slave (q b.headerLength) 1) ↔
      MasterReads b n q := by
  have hdue : dueVerdict b q = .exception 1 := by
    unfold dueVerdict
    dsimp only
    rw [if_neg h3, if_neg h6, if_neg h16]
  rw [decodable_exception_iff arrive slave hdue]
  unfold MasterReads PlainIsShort
  dsimp only
  rw [if_neg h3, if_neg h6, if_neg h16]
  refine and_congr_right fun _ => ?_
  tauto

end Functions

/-- The master understands the reply to an answered request exactly when the
request is one whose reply **the master reads**. -/
theorem reply_decodable_iff (env : Platform) (fe : FrontEnd) (frame : List UInt8)
    (arrive : Nat → Nat) (q : Nat → UInt8) (s : Rtu) (reply : List UInt8)
    (hacc : fe.Accepts frame) (hq : AgreesOn frame q)
    (hr : (modbusReply env fe.backend q frame.length s).1 = some reply) :
    Decodable fe.backend arrive q reply ↔ MasterReads fe.backend frame.length q := by
  have hn := hacc.length
  by_cases hu : (q (fe.backend.headerLength - 1)).toNat < 1 ∨
      (q (fe.backend.headerLength - 1)).toNat > maxWellNum
  · rw [modbusReply_ignored hu] at hr
    cases hr
  by_cases h3 : q fe.backend.headerLength = 3
  · rw [modbusReply_read hu h3] at hr
    rw [← Option.some.inj hr]
    exact decodable_read_iff (by omega) (by omega) h3
  by_cases h6 : q fe.backend.headerLength = 6
  · rw [modbusReply_writeSingle hu h6] at hr
    rw [← Option.some.inj hr]
    -- the echo of a single write is as long as the request, and the master expects eight bytes
    have hrtu : fe.backend = .rtu → frame.length = 8 := by
      intro hb
      cases fe with
      | rtu =>
          exact accepts_rtu_writeSingle_length hacc ((hq.getD hn).symm.trans h6)
      | tcp => cases hb
      | udp => cases hb
    refine decodable_writeSingle_iff ?_ hrtu h6
    cases hb : fe.backend with
    | rtu =>
        rw [hrtu hb]
        decide
    | tcp =>
        rw [hb] at hn
        exact hn
  by_cases h16 : q fe.backend.headerLength = 16
  · rw [modbusReply_writeMultiple hu h16] at hr
    rw [← Option.some.inj hr]
    have hreads : MasterReads fe.backend frame.length q := by
      unfold MasterReads
      dsimp only
      rw [if_neg h3, if_neg h6, if_pos h16]
      trivial
    exact ⟨fun _ => hreads, fun _ => decodable_writeMultiple h16⟩
  · rw [modbusReply_other hu ⟨h3, h6, h16⟩] at hr
    rw [← Option.some.inj hr]
    exact decodable_other_iff h3 h6 h16

/-! ### A read of 128 registers -/

/-- A TCP read of 128 registers: one-byte counts end at 127. -/
def longRead : List UInt8 := [0, 1, 0, 0, 0, 6, 1, 3, 0, 0, 0, 128]

theorem longRead_accepted : FrontEnd.tcp.Accepts longRead :=
  ⟨fun _ => 1, longRead, by rw [receiveMsg_eq]; decide⟩

/-- The unit answers it in full. -/
def longReply : List UInt8 :=
  replyRead (.bare fun _ => none) .tcp (View.extend longRead zeros) 1 0 128 unmappedUnit

theorem longRead_answered :
    (modbusReply (.bare fun _ => none) FrontEnd.tcp.backend (View.extend longRead zeros)
      longRead.length unmappedUnit).1 = some longReply := by
  rw [show FrontEnd.tcp.backend = Backend.tcp from rfl,
    modbusReply_read (by decide) (by decide)]
  rfl

theorem longReply_decodable_iff :
    Decodable .tcp (fun _ => 1) (View.extend longRead zeros) longReply ↔
      MasterReads .tcp longRead.length (View.extend longRead zeros) :=
  reply_decodable_iff (.bare fun _ => none) .tcp longRead (fun _ => 1) _ unmappedUnit longReply
    longRead_accepted (View.agreesOn_extend _ _) longRead_answered

/-- Not every reply is decodable: this one's count byte is zero. -/
theorem not_reply_decodable :
    ¬ ∀ (env : Platform) (fe : FrontEnd) (frame : List UInt8) (arrive : Nat → Nat)
        (q : Nat → UInt8) (s : Rtu) (reply : List UInt8), fe.Accepts frame → AgreesOn frame q →
        (modbusReply env fe.backend q frame.length s).1 = some reply →
        Decodable fe.backend arrive q reply := by
  intro h
  have hd := h (.bare fun _ => none) .tcp longRead (fun _ => 1) (View.extend longRead zeros)
    unmappedUnit longReply longRead_accepted (View.agreesOn_extend _ _) longRead_answered
  have hreads : MasterReads .tcp longRead.length (View.extend longRead zeros) :=
    (decodable_read_iff (by decide) (by decide) (by decide)).1 hd
  revert hreads
  unfold MasterReads
  decide

end RtuA118
