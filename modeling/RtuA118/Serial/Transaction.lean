import RtuA118.Serial.Thread

/-!
# RtuA118.Serial.Transaction

Sending and receiving from inside a thread: `receive_msg` and
`receive_msg_actuator` with the waits between the pieces of a frame, and
`modbus_read_registers` and `modbus_write_registers` over them.

The receive loop is the one of `RtuA118.Modbus.Receive`, over the same rules;
here each read comes after a `select`, which may run the message handler.
`Act.Within` says what such a program, and every operation of the master made of
them, does: it only follows the context it was given, and nothing but its waits
lets the handler in.
-/

namespace RtuA118

open Program Serial

/-! ### The receive loop -/

/-- How far the switch on `step` has got. -/
def Step.rank : Step → Nat
  | .stepFunction => 2
  | .stepMeta => 1
  | .stepData => 0

/-- The next piece is a later one, or there is none. -/
theorem FrameRule.advance_lt {r : FrameRule} {st : Step} {msg : List UInt8} {st' : RecvState}
    (h : r.advance st msg = some st') :
    st'.step.rank < st.rank ∨ st'.step.rank = st.rank ∧ st'.lengthToRead = 0 := by
  have hafter : ∀ {msg st'}, r.afterMeta msg = some st' → st'.step = .stepData := by
    intro msg st' h
    unfold FrameRule.afterMeta at h
    split at h
    · cases h
    · cases h
      rfl
  cases st with
  | stepFunction =>
      by_cases hm : r.metaLength msg ≠ 0
      · rw [FrameRule.advance, if_pos hm] at h
        cases h
        exact .inl (show 1 < 2 by decide)
      · rw [FrameRule.advance, if_neg hm] at h
        rw [hafter h]
        exact .inl (by decide)
  | stepMeta =>
      rw [hafter h]
      exact .inl (by decide)
  | stepData =>
      cases h
      exact .inr ⟨rfl, rfl⟩

/-- The loop of the receive functions: the frame, or `none` for `-1`. -/
def receive (r : FrameRule) (c : Nat) (st : RecvState) : Serial (Option (List UInt8)) :=
  if _hz : st.lengthToRead = 0 then pure (some st.msg)
  else do
    let ready ← select c
    if ready = true then
      let bytes ← recv c st.lengthToRead
      if _hb : bytes = [] then pure none
      else if _hk : st.lengthToRead - bytes.length = 0 then
        match _h : r.advance st.step (st.msg ++ bytes) with
        | none => pure none
        | some st' => receive r c st'
      else receive r c ⟨st.step, st.msg ++ bytes, st.lengthToRead - bytes.length⟩
    else pure none
  termination_by (st.step.rank, st.lengthToRead)
  decreasing_by
    · rcases FrameRule.advance_lt _h with h | ⟨h, h0⟩
      · exact .left _ _ h
      · rw [h, h0]
        exact .right _ (Nat.pos_of_ne_zero _hz)
    · exact .right _ (Nat.sub_lt (Nat.pos_of_ne_zero _hz) (List.length_pos_of_ne_nil _hb))

/-- `receive_msg` on a serial context. -/
def modbusReceiveMsg (c : Nat) (t : MsgType) : Serial (Option (List UInt8)) := do
  match ← receive (msgRule .rtu t) c ⟨.stepFunction, [], Backend.rtu.headerLength + 1⟩ with
  | none => pure none
  | some msg => do
    touch c
    pure (if Backend.rtu.checkIntegrity msg then some msg else none)

/-- `receive_msg_actuator` as a rule: five bytes, the last two the length of what
follows without its trailer. -/
def actuatorRule : FrameRule where
  start := .stepMeta
  firstLength := 5
  metaLength := fun _ => 0
  dataLength := fun msg => be16 (msg.getD 3 0) (msg.getD 4 0) + 4
  maxAduLength := 256

/-- `_modbus_rtu_check_integrity_actuator`. -/
def checkIntegrityActuator (msg : List UInt8) : Bool :=
  (msg.take (msg.length - 4)).foldl (fun t b => (t + b.toNat) % 65536) 0 ==
    be16 (msg.getD (msg.length - 4) 0) (msg.getD (msg.length - 3) 0) && msg.getD 0 0 == 0xCC

/-- `modbus_receive_actuator_timeout`. -/
def modbusReceiveActuator (c : Nat) : Serial (Option (List UInt8)) := do
  match ← receive actuatorRule c ⟨.stepMeta, [], 5⟩ with
  | none => pure none
  | some msg => do
    touch c
    pure (if checkIntegrityActuator msg then some msg else none)

/-! ### Register transactions -/

/-- The request sent, the reply received and `check_confirmation`: the frame of a
reply that is taken as good, with the count it carries. -/
def exchange (c : Nat) (request : LineRequest) : Serial (Option (List UInt8 × Nat)) := do
  match ← send c request with
  | none => pure none
  | some req =>
    match ← modbusReceiveMsg c .confirmation with
    | none => pure none
    | some rsp => do
      touch c
      match checkConfirmation .rtu (fun k => req.getD k 0) rsp with
      | .success n => pure (some (rsp, n))
      | .exception _ | .badData => pure none

/-- `modbus_read_registers`: the registers, or `none` for `-1`. -/
def modbusReadRegisters (c addr nb : Nat) : Serial (Option (List UInt16)) := do
  match ← exchange c (.readRegisters addr nb) with
  | none => pure none
  | some (rsp, n) =>
    pure (some ((List.range n).map fun k =>
      wordOfBytes (rsp.getD (2 * k + 4) 0) (rsp.getD (2 * k + 3) 0)))

/-- `modbus_write_registers`. -/
def modbusWriteRegisters (c addr : Nat) (words : List UInt16) : Serial (Option Unit) := do
  match ← exchange c (.writeRegisters addr words) with
  | none => pure none
  | some _ => pure (some ())

/-! ### What a transaction does -/

namespace Act

/-- The operations of a transaction over the context `c`. -/
def OnWire (c : Nat) : Act → Prop
  | .send c' _ | .select c' | .recv c' _ | .touch c' => c' = c
  | _ => False

/-- The operations of the sampling loop: those of its transactions, and the clock. -/
def Sampling (c : Nat) : Act → Prop
  | .gettimeofday | .timerSleep _ => True
  | e => e.OnWire c

/-- The operations of the master's work over the context `c`: none is the loop's,
and none is a sampling run's alone, which looks at its parameters and divides. -/
def Within (c : Nat) : Act → Prop
  | .send c' _ | .select c' | .recv c' _ | .touch c' | .setSlave c' _ | .putSlave c' _
  | .getSlave c' => c' = c
  | .time | .gettimeofday | .timerSleep _ | .ownWellNo _ | .readWord .. | .readWords ..
  | .writeWords .. | .saveTime .. | .stampSample .. | .clearMac _ => True
  | .getCtx | .getCtrl | .setCtrl _ | .waitMsg _ | .chooseOperation | .switchCtrl | .syn _
  | .divide .. | .reply .. => False

/-- Those among them that change no address and use no row. -/
def Steady (c : Nat) : Act → Prop
  | .setSlave .. | .putSlave .. | .stampSample .. | .clearMac _ => False
  | e => e.Within c

/-- The operations of a kind, and those of the run alone. -/
def OrSyn (K : Act → Prop) (e : Act) : Prop :=
  K e ∨ (∃ i, e = .syn i) ∨ ∃ a b, e = .divide a b

abbrev WithinRun (c : Nat) : Act → Prop := OrSyn (Within c)

/-- The operations of the master's loop. -/
def Loop : Act → Prop
  | .getCtx | .getCtrl | .setCtrl _ | .waitMsg _ | .chooseOperation | .switchCtrl => True
  | _ => False

variable {c : Nat} {e : Act}

theorem OnWire.sampling (h : e.OnWire c) : e.Sampling c := by
  cases e <;> first | exact h | exact h.elim

theorem Sampling.steady (h : e.Sampling c) : e.Steady c := by
  cases e <;> first | exact h | exact h.elim

theorem OnWire.steady (h : e.OnWire c) : e.Steady c := h.sampling.steady

theorem Steady.within (h : e.Steady c) : e.Within c := by
  cases e <;> first | exact h | exact h.elim

theorem OrSyn.mono {K L : Act → Prop} (hsub : ∀ e, K e → L e) (h : OrSyn K e) : OrSyn L e :=
  h.imp (hsub e) fun h => h

end Act

/-- Each wait and each read of the loop is over the context it was given. -/
theorem receive_onWire {r : FrameRule} {c : Nat} {st : RecvState} :
    (receive r c st).Only (Act.OnWire c) := by
  fun_induction receive r c st with
  | case1 => trivial
  | case2 st _ ihm ihk =>
      refine Prog.Only.bind (Prog.only_op.2 rfl) fun ready => ?_
      split
      · refine Prog.Only.bind (Prog.only_op.2 rfl) fun bytes => ?_
        split
        · trivial
        · rename_i hb
          split
          · split
            · trivial
            · rename_i st' hst'
              exact ihm bytes st' hst'
          · exact ihk bytes hb
      · trivial

theorem modbusReceiveMsg_onWire {c : Nat} {t : MsgType} :
    (modbusReceiveMsg c t).Only (Act.OnWire c) := by
  refine Prog.Only.bind receive_onWire fun o => ?_
  cases o with
  | none => trivial
  | some msg => exact Prog.Only.bind (Prog.only_op.2 rfl) fun _ => trivial

theorem modbusReceiveActuator_onWire {c : Nat} :
    (modbusReceiveActuator c).Only (Act.OnWire c) := by
  refine Prog.Only.bind receive_onWire fun o => ?_
  cases o with
  | none => trivial
  | some msg => exact Prog.Only.bind (Prog.only_op.2 rfl) fun _ => trivial

theorem exchange_onWire {c : Nat} {request : LineRequest} :
    (exchange c request).Only (Act.OnWire c) := by
  refine Prog.Only.bind (Prog.only_op.2 rfl) fun o => ?_
  cases o with
  | none => trivial
  | some req =>
      refine Prog.Only.bind modbusReceiveMsg_onWire fun o => ?_
      cases o with
      | none => trivial
      | some rsp =>
          refine Prog.Only.bind (Prog.only_op.2 rfl) fun _ => ?_
          split <;> trivial

theorem modbusReadRegisters_onWire {c addr nb : Nat} :
    (modbusReadRegisters c addr nb).Only (Act.OnWire c) := by
  refine Prog.Only.bind exchange_onWire fun o => ?_
  cases o <;> trivial

theorem modbusWriteRegisters_onWire {c addr : Nat} {words : List UInt16} :
    (modbusWriteRegisters c addr words).Only (Act.OnWire c) := by
  refine Prog.Only.bind exchange_onWire fun o => ?_
  cases o <;> trivial

end RtuA118
