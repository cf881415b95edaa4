import RtuA118.Meter.Packet

/-!
# RtuA118.Zigbee.Setup

`set_zigbee_para`: the radio module is brought into its command mode, told to speak API
frames, sent back to its normal mode with `ATCN`, and configured in API frames then.

`set_at_order` reports a module that does not answer by `-1` through an unsigned byte,
so its caller never sees it. `setZigbeePara_apiFrames_iff` says what follows: frames are
written whether or not the module has left its command mode.
-/

namespace RtuA118

/-! ### The port -/

/-- The module's side of the line: the bytes that the `k`-th `read` finds, none where it
fails, and the frame that the `k`-th `modbus_receive_zigbee_timeout` returns. -/
structure XbeeModule where
  answer : Nat → List UInt8
  reply : Nat → Option (List UInt8)

/-- What went over the port: the strings written, and how many reads and receive calls
were made. -/
structure TtyPort where
  written : List (List UInt8)
  reads : Nat
  receives : Nat
  deriving DecidableEq, Repr

def TtyPort.write (bytes : List UInt8) (p : TtyPort) : TtyPort :=
  { p with written := p.written ++ [bytes] }

/-- The bytes of a string literal. -/
def ascii (s : String) : List UInt8 := s.toList.map fun c => UInt8.ofNat c.toNat

/-- `RESEND_NUM`. -/
def resendNum : Nat := 10

/-! ### `set_at_order` -/

/-- Its variables: the `rc_cnt` bytes of `at_reply`, and `rc_read_cnt`. Neither is reset
between two attempts. -/
structure AtCall where
  port : TtyPort
  reply : List UInt8
  readCnt : Nat
  deriving DecidableEq, Repr

namespace AtCall

/-- `at_reply` starts with `"OK\r"`; it is zero behind what was read. -/
def Acked (c : AtCall) : Prop :=
  (c.reply.getD 0 0 = 0x4F ∧ c.reply.getD 1 0 = 0x4B) ∧ c.reply.getD 2 0 = 0x0D

instance (c : AtCall) : Decidable c.Acked := inferInstanceAs (Decidable (_ ∧ _))

end AtCall

section SetAtOrder

variable (x : XbeeModule)

/-- One `read` of the bytes that are missing. -/
def AtCall.read (c : AtCall) : AtCall where
  port := { c.port with reads := c.port.reads + 1 }
  reply := c.reply ++ (x.answer c.port.reads).take (3 - c.reply.length)
  readCnt := c.readCnt + 1

/-- The inner loop, of `n` turns at most. -/
def readReply : Nat → AtCall → AtCall
  | 0, c => c
  | n + 1, c =>
    let c := c.read x
    if c.reply.length < 3 ∧ c.readCnt < 3 then readReply n c else c

/-- The outer loop, of `n` turns at most: `resend_num` and the variables after it. -/
def setAtLoop (order : List UInt8) : Nat → Nat → AtCall → Nat × AtCall
  | 0, resend, c => (resend, c)
  | n + 1, resend, c =>
    let c := readReply x 3 { c with port := c.port.write order }
    if resend + 1 < resendNum ∧ ¬ c.Acked then setAtLoop order n (resend + 1) c
    else (resend + 1, c)

/-- `set_at_order`: the `u8` it returns, and its variables at the end. -/
def setAtOrder (order : List UInt8) (p : TtyPort) : UInt8 × AtCall :=
  if order.length ≤ 0 then (UInt8.ofInt (-1), ⟨p, [], 0⟩)
  else
    let (resend, c) := setAtLoop x order resendNum 0 ⟨p, [], 0⟩
    if resend ≥ resendNum ∨ ¬ c.Acked then (UInt8.ofInt (-1), c) else (1, c)

end SetAtOrder

/-! ### API frames -/

/-- A frame with an order to the module. -/
def apiFrame (frameIdFlag : UInt8) (idName : UInt8 × UInt8) (data : List UInt8) : List UInt8 :=
  let body := [0x08, frameIdFlag, idName.1, idName.2] ++ data
  [0x7E, 0x00, UInt8.ofNat body.length] ++ body ++ [calcSumCheck body]

/-- `set_panid`; the identifier is given by its words in memory order. -/
def setPanid (panid : List UInt16) : List UInt8 :=
  apiFrame 0x02 (0x49, 0x44) (bytesOfWords panid ++ [0, 0, 0, 0]).reverse

/-- `set_sc_ch`. -/
def setScCh (auto ch : UInt8) : Option (List UInt8) :=
  if auto = 0 then some (apiFrame 0x0b (0x53, 0x43) [0x7f, 0xff])
  else if ch < 0x0b ∨ ch > 0x19 then none
  else
    let temp : UInt16 := 1 <<< (ch - 0x0b).toUInt16
    some (apiFrame 0x0b (0x53, 0x43) [hiByte temp, loByte temp])

/-- `set_password_enable`. -/
def setPasswordEnable (flag : UInt8) : Option (List UInt8) :=
  if flag > 1 then none
  else if flag = 0 then some (apiFrame 0x01 (0x45, 0x45) [0x00])
  else some (apiFrame 0x01 (0x45, 0x45) [0x01])

/-- `set_xbee_key`; the key is given by its words in memory order. -/
def setXbeeKey (key : List UInt16) : List UInt8 :=
  apiFrame 0x04 (0x4b, 0x59) (bytesOfWords key).reverse

/-- `xbee_store_parameter`. -/
def xbeeStoreParameter : List UInt8 := apiFrame 0x01 (0x57, 0x52) []

/-- `xbee_net_restart`. -/
def xbeeNetRestart : List UInt8 := apiFrame 0x04 (0x4e, 0x52) []

/-! ### `set_zigbee_para` -/

section SetZigbeePara

variable (x : XbeeModule)

/-- The module confirms an order. -/
def Confirms (idName : UInt8 × UInt8) (reply : Option (List UInt8)) : Prop :=
  ∃ f ∈ reply, f.length = 9 ∧ f.getD 0 0 = 0x7E ∧ f.getD 5 0 = idName.1 ∧ f.getD 6 0 = idName.2

instance (idName : UInt8 × UInt8) (reply : Option (List UInt8)) :
    Decidable (Confirms idName reply) :=
  match reply with
  | none => .isFalse fun ⟨_, h, _⟩ => nomatch h
  | some f =>
    decidable_of_iff (f.length = 9 ∧ f.getD 0 0 = 0x7E ∧ f.getD 5 0 = idName.1 ∧
      f.getD 6 0 = idName.2) (by simp [Confirms])

/-- The loop around one order, of `n` turns at most: it is written, where it is one the
module knows, until the module confirms it. -/
def apiStage (frame : Option (List UInt8)) (idName : UInt8 × UInt8) : Nat → TtyPort → TtyPort
  | 0, p => p
  | n + 1, p =>
    let p := frame.elim p p.write
    let reply := x.reply p.receives
    let p := { p with receives := p.receives + 1 }
    if Confirms idName reply then p else apiStage frame idName n p

/-- The orders before `ATCN`. -/
def atOrders : List (List UInt8) :=
  [ascii "+++", ascii "ATZS 2\r", ascii "ATCE 1\r", ascii "ATAP 1\r", ascii "ATAO 1\r",
    ascii "ATSM 0\r", ascii "ATSP 100\r", ascii "ATSN 7FFF\r"]

/-- The final order, and what `set_at_order` makes of it. -/
def leaveCommandMode : UInt8 × AtCall :=
  setAtOrder x (ascii "ATCN \r")
    (atOrders.foldl (fun p order => (setAtOrder x order p).2.port) ⟨[], 0, 0⟩)

/-- `set_zigbee_para` of the nine words of `st_zigbee_para_option`: what goes over the
port. The flags and the channel are passed as bytes. -/
def setZigbeePara (para : Nat → UInt16) : TtyPort :=
  let (rc, c) := leaveCommandMode x
  if (-1 : Int) = rc.toNat then c.port
  else
    -- `swap_register32` and `swap_register64` turn the words around
    let panid := [para 0, para 1].reverse
    let key := [para 5, para 6, para 7, para 8].reverse
    let p := apiStage x (some (setPanid panid)) (0x49, 0x44) resendNum c.port
    let p := apiStage x (setScCh (loByte (para 2)) (loByte (para 3))) (0x53, 0x43) resendNum p
    let p := apiStage x (setPasswordEnable (loByte (para 4))) (0x45, 0x45) resendNum p
    let p := apiStage x (some (setXbeeKey key)) (0x4b, 0x59) resendNum p
    let p := apiStage x (some xbeeStoreParameter) (0x57, 0x52) resendNum p
    apiStage x (some xbeeNetRestart) (0x4e, 0x52) resendNum p

/-- The final order gets its `"OK\r"`. -/
def LeavesCommandMode : Prop := (leaveCommandMode x).2.Acked

instance : Decidable (LeavesCommandMode x) := inferInstanceAs (Decidable (AtCall.Acked _))

end SetZigbeePara

/-! ### What is written -/

/-- An API frame. -/
def IsApiFrame (bytes : List UInt8) : Prop := bytes.head? = some 0x7E

instance (bytes : List UInt8) : Decidable (IsApiFrame bytes) := inferInstanceAs (Decidable (_ = _))

section Written

variable {x : XbeeModule}

/-- The inner loop ends by its own condition: three turns are all it takes. -/
theorem readReply_done : ∀ (n : Nat) (c : AtCall), 3 ≤ n + 1 + c.readCnt →
    ¬ ((readReply x (n + 1) c).reply.length < 3 ∧ (readReply x (n + 1) c).readCnt < 3) := by
  intro n
  induction n with
  | zero =>
      intro c hc
      have hstop : readReply x (0 + 1) c = c.read x := by
        unfold readReply
        dsimp only [readReply]
        split <;> rfl
      have hread : (c.read x).readCnt = c.readCnt + 1 := rfl
      rw [hstop, hread]
      omega
  | succ n ih =>
      intro c hc
      have hread : (c.read x).readCnt = c.readCnt + 1 := rfl
      unfold readReply
      dsimp only
      split
      · exact ih _ (by omega)
      · rename_i hend
        exact hend

/-- No return code of `set_at_order` is the one its caller looks for. -/
theorem setAtOrder_ne (order : List UInt8) (p : TtyPort) :
    (-1 : Int) ≠ (setAtOrder x order p).1.toNat := by
  omega

theorem apiStage_keeps (frame : Option (List UInt8)) (idName : UInt8 × UInt8) {f : List UInt8} :
    ∀ (n : Nat) {p : TtyPort}, f ∈ p.written → f ∈ (apiStage x frame idName n p).written := by
  intro n
  induction n with
  | zero => exact fun h => h
  | succ n ih =>
      intro p h
      have hturn : f ∈ (frame.elim p p.write).written := by
        cases frame with
        | none => exact h
        | some frame => exact List.mem_append_left _ h
      unfold apiStage
      dsimp only
      split
      · exact hturn
      · exact ih hturn

/-- A stage writes its frame at least once. -/
theorem mem_apiStage (frame : List UInt8) (idName : UInt8 × UInt8) (n : Nat) (p : TtyPort) :
    frame ∈ (apiStage x (some frame) idName (n + 1) p).written := by
  have hturn : frame ∈ (p.write frame).written :=
    List.mem_append_right _ (List.mem_singleton.2 rfl)
  unfold apiStage
  dsimp only [Option.elim_some]
  split
  · exact hturn
  · exact apiStage_keeps _ _ n hturn

theorem setPanid_written (para : Nat → UInt16) :
    setPanid [para 0, para 1].reverse ∈ (setZigbeePara x para).written := by
  have hleft : ¬ (-1 : Int) = (leaveCommandMode x).1.toNat := setAtOrder_ne _ _
  unfold setZigbeePara
  dsimp only
  rw [if_neg hleft]
  iterate 5 refine apiStage_keeps _ _ _ ?_
  exact mem_apiStage _ _ 9 _

end Written

/-- **The frames of `set_zigbee_para`** wait for no acknowledgement: a module that has not
left its command mode is sent them all the same. -/
theorem setZigbeePara_apiFrames_iff (x : XbeeModule) (para : Nat → UInt16) :
    (¬ LeavesCommandMode x → ∀ bytes ∈ (setZigbeePara x para).written, ¬ IsApiFrame bytes) ↔
      LeavesCommandMode x := by
  constructor
  · intro h
    by_contra hstays
    exact h hstays _ (setPanid_written para) rfl
  · intro hleaves hstays
    exact absurd hleaves hstays

/-- A module that does not answer. -/
def silentModule : XbeeModule := ⟨fun _ => [], fun _ => none⟩

theorem not_setZigbeePara_silent : ¬ ∀ (x : XbeeModule) (para : Nat → UInt16),
    ¬ LeavesCommandMode x → ∀ bytes ∈ (setZigbeePara x para).written, ¬ IsApiFrame bytes := by
  intro h
  have hstays : ¬ LeavesCommandMode silentModule := by decide
  exact h silentModule (fun _ => 0) hstays _ (setPanid_written _) rfl

end RtuA118
