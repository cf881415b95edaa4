import Mathlib.Data.List.Induction
import RtuA118.Serial.Actuator
import RtuA118.Serial.Frame
import RtuA118.Words

/-!
# RtuA118.Serial.ActuatorParam

The parameter frame of `rtu_set_actuator_param`.

`setActuatorPara` fills the packed structure as the source does: the allotment is a word
laid over two registers, turned around by registers, multiplied, and turned around by
bytes. `setActuatorPara_bytes` says that its bytes are the frame the thread sends. The
product wraps at 32 bits and the return codes of the reads are not looked at, so the
frame is right exactly when the registers read and the product fits (`ParamsFit`).
-/

namespace RtuA118

open Program Serial Rs485

/-! ### The structure -/

/-- `packet_sum_check`. -/
def packetSumCheck (buff : Nat → UInt8) (len : Nat) : UInt16 :=
  (List.range len).foldl (fun temp i => temp + (buff i).toUInt16) 0

/-- `st_set_actuator_para`. -/
structure StSetActuatorPara where
  header : UInt8
  addr : UInt8
  funCode : UInt8
  injecAllocPerday : UInt32
  adjustAccuracyPercent : UInt8
  autoFlag : UInt8
  startTimeDay : UInt8
  checksum : UInt16
  eof : UInt8

/-- The bytes in memory. -/
def StSetActuatorPara.bytes (p : StSetActuatorPara) : List UInt8 :=
  [p.header, p.addr, p.funCode] ++ bytesOfU32 p.injecAllocPerday ++
    [p.adjustAccuracyPercent, p.autoFlag, p.startTimeDay] ++ bytesOfWords [p.checksum] ++ [p.eof]

/-- The structure as it is written to the line, from the words that were read. -/
def setActuatorPara (slave : Int) (injec0 injec1 accuracy autoFlag : UInt16) :
    StSetActuatorPara :=
  let p : StSetActuatorPara :=
    ⟨0xCC, UInt8.ofInt slave, 0x02, u32OfWords injec0 injec1, loByte accuracy, loByte autoFlag,
      0x00, 0, 0xEE⟩
  let p := { p with injecAllocPerday := swapRegister32 p.injecAllocPerday }
  let p := { p with injecAllocPerday := 1000 * p.injecAllocPerday }
  let p := { p with injecAllocPerday := swapInt32 p.injecAllocPerday }
  let p := { p with checksum := packetSumCheck (fun i => p.bytes.getD i 0) 10 }
  { p with checksum := swapInt16 p.checksum }

/-! ### It is the frame the thread sends -/

theorem bytesOfU32_eq (n : UInt32) : bytesOfU32 n = (beBytes32 n.toNat).reverse := by
  simp [bytesOfU32, beBytes32, Endian.lanes, Nat.div_div_eq_div_mul]

/-- The allotment, times 1000 in 32 bits, high byte first. -/
theorem bytesOfU32_allotment (injec0 injec1 : UInt16) :
    bytesOfU32 (swapInt32 (1000 * swapRegister32 (u32OfWords injec0 injec1)))
      = beBytes32 (1000 * (65536 * injec0.toNat + injec1.toNat) % 4294967296) := by
  have hsum : (1000 * u32OfWords injec1 injec0).toNat
      = 1000 * (65536 * injec0.toNat + injec1.toNat) % 4294967296 := by
    rw [UInt32.toNat_mul, toNat_u32OfWords]
    simp [Endian.ofLanes, Nat.add_comm]
  rw [bytesOfU32_swapInt32, swapRegister32_u32OfWords, bytesOfU32_eq, List.reverse_reverse, hsum]

theorem packetSumCheck_eq (body rest : List UInt8) :
    (packetSumCheck (fun i => (body ++ rest).getD i 0) body.length).toNat
      = body.foldl (fun t b => (t + b.toNat) % 65536) 0 := by
  induction body using List.reverseRecOn generalizing rest with
  | nil => rfl
  | append_singleton body b ih =>
      have hlast : (body ++ [b] ++ rest).getD body.length 0 = b := by simp
      have hsum := ih ([b] ++ rest)
      rw [← List.append_assoc] at hsum
      rw [packetSumCheck, List.length_append, List.length_singleton, List.range_succ,
        List.foldl_append, List.foldl_append, List.foldl_cons, List.foldl_nil, ← packetSumCheck,
        UInt16.toNat_add, hsum, hlast]
      simp

/-- **The frame is the structure.** -/
theorem setActuatorPara_bytes (slave : Int) (injec0 injec1 accuracy autoFlag : UInt16) :
    (setActuatorPara slave injec0 injec1 accuracy autoFlag).bytes
      = (LineRequest.actuatorParam [injec0, injec1] accuracy autoFlag).frame slave := by
  let body : List UInt8 := [0xCC, UInt8.ofInt slave, 2] ++
    bytesOfU32 (swapInt32 (1000 * swapRegister32 (u32OfWords injec0 injec1))) ++
    [loByte accuracy, loByte autoFlag, 0]
  have hlen : body.length = 10 := by simp [body]
  have hsum := packetSumCheck_eq body (bytesOfWords [0] ++ [0xEE])
  rw [hlen, ← List.append_assoc] at hsum
  have hbytes : (setActuatorPara slave injec0 injec1 accuracy autoFlag).bytes = body ++
      bytesOfWords [swapInt16 (packetSumCheck
        (fun i => (body ++ bytesOfWords [0] ++ [0xEE]).getD i 0) 10)] ++ [0xEE] := rfl
  have hframe : (LineRequest.actuatorParam [injec0, injec1] accuracy autoFlag).frame slave
      = actuatorFrame body := by
    simp only [body, bytesOfU32_allotment]
    rfl
  rw [hbytes, hframe, actuatorFrame, ← hsum, List.append_assoc]
  simp only [bytesOfWords_cons, bytesOfWords_nil, swapInt16, loByte_wordOfBytes,
    hiByte_wordOfBytes]
  rfl

/-! ### The registers -/

/-- What the registers of an actuator hold. -/
structure ParamRegisters (env : Platform) (s : Rtu) (a : ActuatorRegs)
    (well v0 v1 accuracy autoFlag : UInt16) : Prop where
  wellNo : ReadsAs env s 1 actuatorWellNoAddr [well]
  allotment : ReadsAs env s well.toNat a.injecPerdayAddr [v0, v1]
  adjustAccurent : ReadsAs env s well.toNat a.adjustAccurentAddr [accuracy]
  flag : ReadsAs env s well.toNat a.autoFlagAddr [autoFlag]

/-- The 32-bit allotment in its two registers. -/
def allotmentOf (v0 v1 : UInt16) : Nat := 65536 * v0.toNat + v1.toNat

/-- The registers read, and the allotment times 1000 fits in 32 bits. -/
def ParamsFit (env : Platform) (s : Rtu) (a : ActuatorRegs) : Prop :=
  ∃ well v0 v1 accuracy autoFlag, ParamRegisters env s a well v0 v1 accuracy autoFlag ∧
    1000 * allotmentOf v0 v1 < 2 ^ 32

/-- The frame carries these values, and its sum. -/
structure CarriesParams (allotment : Nat) (accuracy autoFlag : UInt16) (f : List UInt8) :
    Prop where
  length : f.length = 13
  allotment : beNat f 3 4 = 1000 * allotment
  accuracy : f.getD 7 0 = loByte accuracy
  autoFlag : f.getD 8 0 = loByte autoFlag
  checksum : beNat f 10 2 = ((f.take 10).map UInt8.toNat).sum

/-- The unit stays as it is. -/
def Quiet (s : Rs485) (_ : Act) (i : Input) : Prop := i.others s.rtu = s.rtu

/-- Every frame that `rtu_set_actuator_param` writes carries the parameters that the registers
hold; where they do not read or the product does not fit, it writes none. -/
def SendsParams (h : Host) (role : Role) (c : Nat) (a : ActuatorRegs) (s : Rs485) : Prop :=
  Ensures (exec h role) Quiet (fun _ _ => True)
    (fun _ s' => ∃ frames, s'.sent = s.sent ++ frames ∧
      (∀ f ∈ frames, ∃ well v0 v1 accuracy autoFlag,
        ParamRegisters h.env s.rtu a well v0 v1 accuracy autoFlag ∧
          CarriesParams (allotmentOf v0 v1) accuracy autoFlag f) ∧
      (¬ ParamsFit h.env s.rtu a → frames = []))
    (rtuSetActuatorParam h c) s

/-! ### What is sent -/

theorem foldl_sum_mod (bs : List UInt8) (t : Nat) :
    bs.foldl (fun t b => (t + b.toNat) % 65536) (t % 65536)
      = (t + (bs.map UInt8.toNat).sum) % 65536 := by
  induction bs generalizing t with
  | nil => simp
  | cons b bs ih => simp [← Nat.add_assoc, ih]

theorem sum_toNat_le (bs : List UInt8) : (bs.map UInt8.toNat).sum ≤ 255 * bs.length := by
  induction bs with
  | nil => simp
  | cons b bs ih =>
      have hb := b.toNat_lt
      simp only [List.map_cons, List.sum_cons, List.length_cons]
      omega

/-- The trailer of a short frame is the plain sum. -/
theorem actuatorFrame_eq {body : List UInt8} (h : body.length ≤ 256) :
    actuatorFrame body = body ++ [UInt8.ofNat ((body.map UInt8.toNat).sum / 256),
      UInt8.ofNat ((body.map UInt8.toNat).sum % 256), 0xEE] := by
  have hle := sum_toNat_le body
  have hsum : body.foldl (fun t b => (t + b.toNat) % 65536) 0 = (body.map UInt8.toNat).sum := by
    rw [show (0 : Nat) = 0 % 65536 from rfl, foldl_sum_mod, Nat.zero_add,
      Nat.mod_eq_of_lt (by omega)]
  rw [actuatorFrame, hsum]

theorem foldl_beNat_lt (bs : List UInt8) (t : Nat) :
    bs.foldl (fun t b => 256 * t + b.toNat) t < (t + 1) * 256 ^ bs.length := by
  induction bs generalizing t with
  | nil => simp
  | cons b bs ih =>
      have hb := b.toNat_lt
      calc bs.foldl (fun t b => 256 * t + b.toNat) (256 * t + b.toNat)
          < (256 * t + b.toNat + 1) * 256 ^ bs.length := ih _
        _ ≤ (256 * (t + 1)) * 256 ^ bs.length := Nat.mul_le_mul_right _ (by omega)
        _ = (t + 1) * 256 ^ (b :: bs).length := by
          rw [List.length_cons, Nat.pow_succ, Nat.mul_comm 256 (t + 1), Nat.mul_assoc,
            Nat.mul_comm 256]

theorem beNat_lt (f : List UInt8) (k n : Nat) : beNat f k n < 256 ^ n := by
  have hlt := foldl_beNat_lt ((f.drop k).take n) 0
  rw [Nat.zero_add, Nat.one_mul] at hlt
  exact Nat.lt_of_lt_of_le hlt (Nat.pow_le_pow_right (by decide) (List.length_take_le _ _))

/-- The frame carries what was read, where the product fits. -/
theorem actuatorParam_carries {slave : Int} {v0 v1 accuracy autoFlag : UInt16}
    (h : 1000 * allotmentOf v0 v1 < 2 ^ 32) :
    CarriesParams (allotmentOf v0 v1) accuracy autoFlag
      ((LineRequest.actuatorParam [v0, v1] accuracy autoFlag).frame slave) := by
  obtain ⟨n, hn⟩ : ∃ n, n = 1000 * allotmentOf v0 v1 := ⟨_, rfl⟩
  rw [← hn] at h
  let body : List UInt8 :=
    [0xCC, UInt8.ofInt slave, 2] ++ beBytes32 n ++ [loByte accuracy, loByte autoFlag, 0]
  have hframe : (LineRequest.actuatorParam [v0, v1] accuracy autoFlag).frame slave
      = actuatorFrame body := by
    have hmod : 1000 * allotmentOf v0 v1 % 4294967296 = n := by
      rw [← hn]
      exact Nat.mod_eq_of_lt h
    simp only [body, ← hmod]
    rfl
  have hlen : body.length = 10 := by simp [body, beBytes32]
  have hle := sum_toNat_le body
  rw [hframe, actuatorFrame_eq (by omega)]
  refine ⟨by simp [hlen], ?_, by simp [body, beBytes32], by simp [body, beBytes32], ?_⟩
  · -- the four bytes of the allotment, most significant first
    have h2 : n / 65536 = n / 256 / 256 := (Nat.div_div_eq_div_mul n 256 256).symm
    have h3 : n / 16777216 = n / 256 / 256 / 256 := by simp [Nat.div_div_eq_div_mul]
    simp only [beNat, body, beBytes32, h2, h3, ← hn]
    simp
    omega
  · let trailer : List UInt8 := [UInt8.ofNat ((body.map UInt8.toNat).sum / 256),
      UInt8.ofNat ((body.map UInt8.toNat).sum % 256), 0xEE]
    have htake : (body ++ trailer).take 10 = body := by
      rw [← hlen]
      exact List.take_left
    have hdrop : (body ++ trailer).drop 10 = trailer := by
      rw [← hlen]
      exact List.drop_left
    rw [htake, beNat, hdrop]
    simp [trailer]
    omega

/-! ### The call -/

section Call

variable {h : Host} {role : Role} {c : Nat} {s : Rs485} {a : ActuatorRegs}

theorem arrive_quiet {e : Act} {i : Input} (hi : Quiet s e i) : s.arrive i = s := by
  rw [Rs485.arrive, hi]

/-- Nobody else at work, and the write as `ready` says. -/
def still (ready : Bool) : Input := ⟨id, ready, none, [], ⟨0, 0⟩⟩

/-- An operation that only looks. -/
theorem ensures_look {β : Type} {post : β → Rs485 → Prop} {e : Act} {f : e.Out → Serial β}
    {r : e.Out} (he : ∀ i, Quiet s e i → exec h role e i s = some (r, s)) :
    Ensures (exec h role) Quiet (fun _ _ => True) post (Prog.op e >>= f) s ↔
      Ensures (exec h role) Quiet (fun _ _ => True) post (f r) s := by
  rw [ensures_op_bind]
  constructor
  · intro hE
    exact hE.2 (still true) r s rfl (he _ rfl)
  · intro hE
    refine ⟨trivial, fun i r' s' hi hs' => ?_⟩
    obtain ⟨rfl, rfl⟩ := Prod.mk.inj (Option.some.inj ((he i hi).symm.trans hs'))
    exact hE

theorem exec_readWord {cur : UInt16} {w addr : Nat} {i : Input}
    (hi : Quiet s (.readWord cur w addr) i) :
    exec h role (.readWord cur w addr) i s = some (readWord h.env s.rtu cur w addr, s) := by
  rw [exec_eq (follows_of_none rfl), arrive_quiet hi]
  rfl

/-- The request the call makes of the registers. -/
def paramRequest (h : Host) (a : ActuatorRegs) (s : Rtu) : LineRequest :=
  let w := (readWord h.env s h.stack 1 actuatorWellNoAddr).toNat
  let accuracy := readWord h.env s h.stack w a.adjustAccurentAddr
  .actuatorParam ((zigbeeReadRegisters h.env s (fun k => [h.stack, h.stack].getD k 0) 2 w
      a.injecPerdayAddr).getD [h.stack, h.stack])
    accuracy (readWord h.env s accuracy w a.autoFlagAddr)

/-- The call writes this request, or fails to. -/
theorem rtuSetActuatorParam_ensures {post : Unit → Rs485 → Prop}
    (hlive : (s.contexts c).alive = true) (ha : a = actuator1 ∨ a = actuator2)
    (hslave : (s.contexts c).slave = a.slave) :
    Ensures (exec h role) Quiet (fun _ _ => True) post (rtuSetActuatorParam h c) s ↔
      post () s ∧
        post () { s with sent := s.sent ++ [(paramRequest h a s.rtu).frame a.slave] } := by
  -- what each call answers, whatever comes in meanwhile
  have hslave_look : ∀ i, Quiet s (.getSlave c) i →
      exec h role (.getSlave c) i s = some (a.slave, s) := by
    intro i hi
    rw [exec_eq (follows_of rfl hlive), arrive_quiet hi, ← hslave]
    rfl
  have hwords : ∀ (buf : List UInt16) (w addr : Nat) i, Quiet s (.readWords buf w addr) i →
      exec h role (.readWords buf w addr) i s = some ((zigbeeReadRegisters h.env s.rtu
        (fun k => buf.getD k 0) buf.length w addr).getD buf, s) := by
    intro buf w addr i hi
    rw [exec_eq (follows_of_none rfl), arrive_quiet hi]
    rfl
  have hsend : ∀ (request : LineRequest) i, Quiet s (.send c request) i →
      exec h role (.send c request) i s = some (if i.ready then
        (some (request.frame a.slave), { s with sent := s.sent ++ [request.frame a.slave] })
      else (none, s)) := by
    intro request i hi
    rw [exec_eq (follows_of rfl hlive), arrive_quiet hi, ← hslave]
    simp only [perform]
    split <;> rfl
  have hfill : Ensures (exec h role) Quiet (fun _ _ => True) post (do
        let injec ← fetchWords [h.stack, h.stack]
          (readWord h.env s.rtu h.stack 1 actuatorWellNoAddr).toNat a.injecPerdayAddr
        let accuracy ← fetchWord h.stack
          (readWord h.env s.rtu h.stack 1 actuatorWellNoAddr).toNat a.adjustAccurentAddr
        let autoFlag ← fetchWord accuracy
          (readWord h.env s.rtu h.stack 1 actuatorWellNoAddr).toNat a.autoFlagAddr
        let _ ← send c (.actuatorParam injec accuracy autoFlag)) s ↔
      post () s ∧
        post () { s with sent := s.sent ++ [(paramRequest h a s.rtu).frame a.slave] } := by
    rw [ensures_look (hwords _ _ _), ensures_look fun i => exec_readWord,
      ensures_look fun i => exec_readWord, ensures_op_bind]
    constructor
    · intro hE
      exact ⟨hE.2 (still false) _ _ rfl (hsend _ _ rfl), hE.2 (still true) _ _ rfl (hsend _ _ rfl)⟩
    · rintro ⟨hfail, hsent⟩
      refine ⟨trivial, fun i r s' hi he => ?_⟩
      rw [hsend _ i hi] at he
      split at he
      · obtain ⟨rfl, rfl⟩ := Prod.mk.inj (Option.some.inj he)
        exact hsent
      · obtain ⟨rfl, rfl⟩ := Prod.mk.inj (Option.some.inj he)
        exact hfail
  -- the two actuators differ in their registers only
  rw [rtuSetActuatorParam, ensures_look hslave_look, ensures_look fun i => exec_readWord]
  rcases ha with rfl | rfl
  · exact hfill
  · exact hfill

end Call

/-! ### When the frame is right -/

theorem paramRequest_of {h : Host} {s : Rtu} {a : ActuatorRegs}
    {well v0 v1 accuracy autoFlag : UInt16}
    (hr : ParamRegisters h.env s a well v0 v1 accuracy autoFlag) :
    paramRequest h a s = .actuatorParam [v0, v1] accuracy autoFlag := by
  have hallot := hr.allotment fun k => [h.stack, h.stack].getD k 0
  simp only [paramRequest, hr.wellNo.readWord, hr.adjustAccurent.readWord, hr.flag.readWord]
  rw [show ([v0, v1].length : Int) = 2 from rfl] at hallot
  rw [hallot]
  rfl

/-- **Parameter frames** are right exactly where the registers read and the product fits. -/
theorem sendsParams_iff (h : Host) (role : Role) (c : Nat) (a : ActuatorRegs) (s : Rs485)
    (hlive : (s.contexts c).alive = true) (ha : a = actuator1 ∨ a = actuator2)
    (hslave : (s.contexts c).slave = a.slave) :
    SendsParams h role c a s ↔ ParamsFit h.env s.rtu a := by
  rw [SendsParams, rtuSetActuatorParam_ensures hlive ha hslave]
  constructor
  · rintro ⟨-, frames, hsent, hcarries, -⟩
    obtain rfl := List.append_cancel_left hsent
    obtain ⟨well, v0, v1, accuracy, autoFlag, hr, hf⟩ := hcarries _ List.mem_cons_self
    have hlt := beNat_lt ((paramRequest h a s.rtu).frame a.slave) 3 4
    rw [hf.allotment] at hlt
    exact ⟨well, v0, v1, accuracy, autoFlag, hr, hlt⟩
  · intro hfit
    obtain ⟨well, v0, v1, accuracy, autoFlag, hr, hlt⟩ := hfit
    refine ⟨⟨[], by simp⟩, [(paramRequest h a s.rtu).frame a.slave], rfl, fun f hf => ?_,
      fun hn => absurd ⟨well, v0, v1, accuracy, autoFlag, hr, hlt⟩ hn⟩
    obtain rfl := List.mem_singleton.1 hf
    rw [paramRequest_of hr]
    exact ⟨well, v0, v1, accuracy, autoFlag, hr, actuatorParam_carries hlt⟩

/-- A master about to write to actuator 1 of well 1, which has this allotment. -/
def actuatorMaster (v0 v1 : UInt16) : Rs485 :=
  { startedMaster with
    rtu := .start { emptyMap 1900 (fun _ => 0) (fun _ => 0) with
      ramX := fun k => if k = 18 then 1 else if k = 1871 then v0 else if k = 1872 then v1 else 0 } }

/-- An allotment of 30 is sent as 30000. -/
theorem actuatorMaster_sendsParams :
    SendsParams (.bare (.bare fun _ => none)) .master 0 actuator1 (actuatorMaster 0 30) :=
  (sendsParams_iff _ .master 0 actuator1 _ rfl (.inl rfl) rfl).2
    ⟨1, 0, 30, 0, 0, ⟨fun _ => rfl, fun _ => rfl, fun _ => rfl, fun _ => rfl⟩, by decide⟩

/-- An allotment of 4294968 is sent as 704. -/
theorem not_sendsParams :
    ¬ SendsParams (.bare (.bare fun _ => none)) .master 0 actuator1
      (actuatorMaster 0x0041 0x8938) := by
  intro hsends
  rw [SendsParams, rtuSetActuatorParam_ensures rfl (.inl rfl) rfl] at hsends
  obtain ⟨-, frames, hsent, hcarries, -⟩ := hsends
  obtain rfl := List.append_cancel_left hsent
  obtain ⟨well, v0, v1, accuracy, autoFlag, hr, hf⟩ := hcarries _ List.mem_cons_self
  have hrequest := paramRequest_of hr
  have hread : paramRequest (.bare (.bare fun _ => none)) actuator1
      (actuatorMaster 0x0041 0x8938).rtu = .actuatorParam [0x0041, 0x8938] 0 0 := by decide
  obtain ⟨hwords, rfl, rfl⟩ := LineRequest.actuatorParam.inj (hread.symm.trans hrequest)
  obtain ⟨rfl, rfl⟩ : v0 = 0x0041 ∧ v1 = 0x8938 := by simpa [eq_comm] using hwords
  exact absurd hf.allotment (by decide)

end RtuA118
