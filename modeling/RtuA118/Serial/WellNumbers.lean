import RtuA118.Serial.Contexts

/-!
# RtuA118.Serial.WellNumbers

The **well numbers** the master's operations read from cells 17 and 18, the row
each is used for, and the address a request is sent to.

The range check of `deal_wired_electrical` is made on the context's `slave`, and
`_modbus_set_slave` leaves that at an older value when the well number is above
247; `deal_wired_actuator1` and `2` check nothing. So a well number that is read has
to fit (`WellNumberFits`), and no wait below a receive may free the context the
request is sent from (`RtuA118.Serial.Contexts`). In every run that is in order in
this way every row is in range and every request goes to the address last asked for
(`wellNumbers_run`), and but for a division by zero nothing stops it (`exec_goes_on`). A
unit whose cell 17 holds 300 sends to the address it started with (`stale_address`).
-/

namespace RtuA118

open Program Serial

namespace Rs485

/-- Every row is in range, and every request goes to the address last asked for. -/
def InRange (s : Rs485) : Act → Prop
  | .send c _ => (s.contexts c).slave = (s.contexts c).asked
  | .stampSample row _ | .clearMac row => 0 ≤ row ∧ row < 9
  | _ => True

/-- An electrical well number is an address, or the operation that reads it is given
up anyway: by its check of the context's address, or of the cycle time. -/
def ElectricalFits (s : Rs485) (w : UInt16) : Prop :=
  w.toNat ≤ 247 ∨
    s.serving = .electrical ∧ ¬ (1 ≤ (s.contexts s.ctx).slave ∧ (s.contexts s.ctx).slave < 9) ∨
    s.serving = .electricalSync ∧
      (s.synAlongInfo.cycleTime < 1000 ∨ 10000 < s.synAlongInfo.cycleTime)

/-- What an operation finds when it reads its well number fits. -/
def WellNumberFits (h : Host) (s : Rs485) (e : Act) (i : Input) : Prop :=
  (e = .ownWellNo elecWellNoAddr →
    s.ElectricalFits (readWord h.env (i.others s.rtu) h.stack 1 elecWellNoAddr)) ∧
  (e = .ownWellNo actuatorWellNoAddr →
    1 ≤ (readWord h.env (i.others s.rtu) h.stack 1 actuatorWellNoAddr).toNat ∧
      (readWord h.env (i.others s.rtu) h.stack 1 actuatorWellNoAddr).toNat ≤ 9)

/-- A well number that is read fits, and no wait below a receive renews the context. -/
structure InOrder (h : Host) (s : Rs485) (e : Act) (i : Input) : Prop where
  fits : WellNumberFits h s e i
  settled : SettledBelow h .master s e i

/-- The contexts `c` and `ctx` were allocated at some time. -/
structure Placed (c : Nat) (s : Rs485) : Prop where
  context : c < s.allocated
  ctx : s.ctx < s.allocated

/-- The context `c` has the address `v`, as was asked for. -/
structure Addressed (c : Nat) (v : Int) (s : Rs485) : Prop extends s.Placed c where
  slave : (s.contexts c).slave = v
  asked : (s.contexts c).asked = v

variable {h : Host} {c : Nat} {v : Int} {s s' : Rs485}

/-- What the handler does to a context that was allocated before: at most it frees it. -/
theorem msgHandler_context {role : Role} {msg : Msg} (hs : s.Placed c) :
    (s.msgHandler h role msg).Placed c ∧
      ((s.msgHandler h role msg).contexts c).slave = (s.contexts c).slave ∧
      ((s.msgHandler h role msg).contexts c).asked = (s.contexts c).asked := by
  rcases msgHandler_cases h role msg s with ⟨hf, hc⟩ | ⟨t, n, m, g, -, hp⟩ | ⟨-, -, hre⟩
  · rw [hc]
    refine ⟨⟨?_, ?_⟩, rfl, rfl⟩
    · rw [hf.allocated]
      exact hs.context
    · rw [hf.ctx, hf.allocated]
      exact hs.ctx
  · rw [hp]
    exact ⟨⟨hs.context, hs.ctx⟩, rfl, rfl⟩
  · have hread : ∀ p, ((s.readPortInfo h role).renew p).Placed c ∧
        (((s.readPortInfo h role).renew p).contexts c).slave = (s.contexts c).slave ∧
        (((s.readPortInfo h role).renew p).contexts c).asked = (s.contexts c).asked := by
      intro p
      have hne : c ≠ s.allocated := Nat.ne_of_lt hs.context
      unfold readPortInfo
      split <;>
        refine ⟨⟨Nat.lt_succ_of_lt hs.context, Nat.lt_succ_self _⟩, ?_, ?_⟩ <;>
        by_cases hcc : c = s.ctx <;> simp [renew, hne, hcc, Nat.ne_of_lt hs.ctx]
    rw [hre]
    exact hread _

theorem take_context {role : Role} {i : Input} (hs : s.Placed c) :
    (s.take h role i).Placed c ∧
      ((s.take h role i).contexts c).slave = (s.contexts c).slave ∧
      ((s.take h role i).contexts c).asked = (s.contexts c).asked := by
  unfold Rs485.take
  split
  · exact msgHandler_context hs
  · exact ⟨hs, rfl, rfl⟩

/-- Between two changes of an address no operation but a wait touches a context. -/
theorem exec_contexts {e : Act} {i : Input} {r : e.Out} (hk : Act.OrSyn (Act.Steady c) e)
    (hne : e ≠ .select c) (he : exec h .master e i s = some (r, s')) :
    s'.contexts = s.contexts := by
  obtain ⟨-, hp⟩ := exec_some he
  rcases hk with hk | ⟨k, rfl⟩ | ⟨a, b, rfl⟩
  · cases e with
    | select c' => exact absurd (congrArg Act.select hk) hne
    | send c' request =>
        simp only [perform] at hp
        split at hp <;> cases hp <;> rfl
    | recv _ _ | touch _ | getSlave _ | time | gettimeofday | timerSleep _ | ownWellNo _
    | readWord _ _ _ | readWords _ _ _ | writeWords _ _ _ | saveTime _ _ =>
        cases hp
        rfl
    | setSlave _ _ | putSlave _ _ | stampSample _ _ | clearMac _ | getCtx | getCtrl | setCtrl _
    | waitMsg _ | chooseOperation | switchCtrl | syn _ | divide _ _ | reply _ _ => exact hk.elim
  · cases hp
    rfl
  · simp only [perform] at hp
    split at hp <;> cases hp
    rfl

/-- Work that changes no address keeps the address, and sends to it. -/
theorem Addressed.steady {e : Act} (hs : s.Addressed c v) (hk : Act.OrSyn (Act.Steady c) e) :
    s.InRange e ∧ ∀ i r s', exec h .master e i s = some (r, s') → s'.Addressed c v := by
  constructor
  · rcases hk with hk | ⟨k, rfl⟩ | ⟨a, b, rfl⟩
    · cases e with
      | send c' request =>
          obtain rfl : c' = c := hk
          exact hs.slave.trans hs.asked.symm
      | stampSample _ _ | clearMac _ => exact hk.elim
      | _ => trivial
    · trivial
    · trivial
  · intro i r s' he
    have hw : e.WithinRun c := hk.mono fun _ => Act.Steady.within
    rcases exec_within hw he with ⟨-, rfl⟩ | ⟨hne, hf⟩
    · have hsi : (s.arrive i).Placed c := ⟨hs.context, hs.ctx⟩
      obtain ⟨hp, hslave, hasked⟩ : ((s.arrive i).take h .master i).Placed c ∧ _ ∧ _ :=
        take_context hsi
      exact ⟨hp, hslave.trans hs.slave, hasked.trans hs.asked⟩
    · have hc := exec_contexts hk hne he
      refine ⟨⟨?_, ?_⟩, hc ▸ hs.slave, hc ▸ hs.asked⟩
      · rw [hf.allocated]
        exact hs.context
      · rw [hf.ctx, hf.allocated]
        exact hs.ctx

/-- An address asked for that is one. -/
theorem Placed.setSlave {w : Nat} (hs : s.Placed c) (hw : w ≤ 247) :
    (s.onContext c (.setSlave w)).Addressed c w := by
  have hv : (w : Int) ≤ 247 := Int.ofNat_le.2 hw
  refine ⟨⟨hs.context, hs.ctx⟩, ?_, ?_⟩
  · simp [onContext, Context.setSlave, hv]
  · simp [onContext, Context.setSlave]

end Rs485

open Rs485

/-! ### One turn -/

section Turn

variable {h : Host} {α : Type} {c : Nat}

/-- A program of the master whose rows and addresses are in range from here on, and
that ends where `post` holds. -/
abbrev Ranged (h : Host) (post : α → Rs485 → Prop) : Serial α → Rs485 → Prop :=
  Ensures (exec h .master) (WellNumberFits h) InRange post

theorem ranged_steady {p : Serial α} {v : Int} {s : Rs485}
    (hp : p.Only (Act.OrSyn (Act.Steady c))) (hs : s.Addressed c v) :
    Ranged h (fun _ => Addressed c v) p s := by
  refine hp.ensures (fun s e hs hk => ?_) hs
  obtain ⟨hgood, hnext⟩ := hs.steady (h := h) hk
  exact ⟨hgood, fun i r s' _ he => hnext i r s' he⟩

/-- The two tests of the cycle time give a run up whose cycle time is refused. -/
theorem ranged_refused {p : Serial Int} {s : Rs485} (hs : s.Placed c)
    (hcycle : s.synAlongInfo.cycleTime < 1000 ∨ 10000 < s.synAlongInfo.cycleTime) :
    Ranged h (fun _ => Placed c) (do
      if (← syn 1) < 1000 then pure (-1)
      else if (← syn 1) > 10000 then pure (-1)
      else p) s := by
  refine ensures_op_bind.2 ⟨trivial, fun i r s' _ he => ?_⟩
  cases (exec_some he).2
  by_cases hlow : (s.arrive i).synAlongInfo.word 1 < 1000
  · rw [if_pos hlow]
    exact ⟨hs.context, hs.ctx⟩
  · rw [if_neg hlow]
    refine ensures_op_bind.2 ⟨trivial, fun i' r s' _ he => ?_⟩
    cases (exec_some he).2
    have hhigh : ((s.arrive i).arrive i').synAlongInfo.word 1 > 10000 := hcycle.resolve_left hlow
    rw [if_pos hhigh]
    exact ⟨hs.context, hs.ctx⟩

/-- The run: an electrical well number that fits, or a cycle time that is refused. -/
theorem ranged_timeHandleFun {s : Rs485} (hs : s.Placed c)
    (hserving : s.serving = .electricalSync) :
    Ranged h (fun _ => Placed c) (timeHandleFun c) s := by
  refine ensures_op_bind.2 ⟨trivial, fun i w s' hfit he => ?_⟩
  have hfits : s.ElectricalFits w := by
    cases (exec_some he).2
    exact hfit.1 rfl
  cases (exec_some he).2
  refine ensures_op_bind.2 ⟨trivial, fun i' _ s' _ he => ?_⟩
  cases (exec_some he).2
  rcases hfits with hw | ⟨hserv, -⟩ | ⟨-, hcycle⟩
  · have hplaced : ((s.arrive i).arrive i').Placed c := ⟨hs.context, hs.ctx⟩
    refine (ranged_steady ?_ (hplaced.setSlave hw)).mono fun _ _ h => h.toPlaced
    simp only [Prog.op_bind, Prog.only_call, Prog.only_ite, Prog.only_pure]
    simp [Act.OrSyn, Act.Steady, Act.Within, sampleRun_steady]
  · cases hserving.symm.trans hserv
  · refine ensures_op_bind.2 ⟨trivial, fun i₁ _ s' _ he => ?_⟩
    cases (exec_some he).2
    refine ensures_op_bind.2 ⟨trivial, fun i₂ _ s' _ he => ?_⟩
    cases (exec_some he).2
    refine ensures_op_bind.2 ⟨trivial, fun i₃ _ s' _ he => ?_⟩
    cases (exec_some he).2
    exact ranged_refused ⟨hs.context, hs.ctx⟩ hcycle

/-- The results stored, once the well number is in the range of the check. -/
theorem ranged_storeElectrical {w : UInt16} {r : Measured} {s : Rs485}
    (hs : s.Addressed c w.toNat) (hlow : 1 ≤ w.toNat) (hhigh : w.toNat < 9) :
    Ranged h (fun _ => Placed c) (storeElectrical h c w r) s := by
  have hrow : (0 : Int) ≤ (w.toNat : Int) - 1 ∧ (w.toNat : Int) - 1 < 9 := by omega
  refine ensures_op_bind.2 ⟨hrow, fun i _ s' _ he => ?_⟩
  have hs' : s'.Addressed c w.toNat := by
    have hp := (exec_some he).2
    simp only [perform, if_pos hrow] at hp
    cases hp
    exact ⟨⟨hs.context, hs.ctx⟩, hs.slave, hs.asked⟩
  refine (ranged_steady (p := storeWords _ _ _) ?_ hs').bind fun _ s hs => ?_
  · exact Prog.only_op.2 (.inl trivial)
  refine (ranged_steady (p := Serial.saveTime _ _) ?_ hs).bind fun _ s hs => ?_
  · exact Prog.only_op.2 (.inl trivial)
  refine ensures_op_bind.2 ⟨trivial, fun i r s' _ he => ?_⟩
  cases (exec_some he).2
  have hslave : (((s.arrive i).contexts c).slave) = w.toNat := hs.slave
  rw [hslave]
  refine ensures_op_bind.2 ⟨hrow, fun i' _ s' _ he => ?_⟩
  have hp := (exec_some he).2
  simp only [perform, if_pos hrow] at hp
  cases hp
  exact ⟨hs.context, hs.ctx⟩

/-- The range check of `deal_wired_electrical` is right about a well number that fits. -/
theorem ranged_dealWiredElectrical {s : Rs485} (hs : s.Placed c) (hctx : s.ctx = c)
    (hserving : s.serving = .electrical) :
    Ranged h (fun _ => Placed c) (dealWiredElectrical h c) s := by
  refine ensures_op_bind.2 ⟨trivial, fun i w s' hfit he => ?_⟩
  have hfits : w.toNat ≤ 247 ∨ ¬ (1 ≤ (s.contexts c).slave ∧ (s.contexts c).slave < 9) := by
    have hfits : s.ElectricalFits w := by
      cases (exec_some he).2
      exact hfit.1 rfl
    rcases hfits with hw | ⟨-, hslave⟩ | ⟨hserv, -⟩
    · exact .inl hw
    · exact .inr (hctx ▸ hslave)
    · cases hserving.symm.trans hserv
  have hs' : s'.Placed c ∧ s'.contexts = s.contexts := by
    cases (exec_some he).2
    exact ⟨⟨hs.context, hs.ctx⟩, rfl⟩
  refine ensures_op_bind.2 ⟨trivial, fun i' _ t _ he => ?_⟩
  have ht : t.Placed c ∧ (t.Addressed c w.toNat ∨
      ¬ (1 ≤ (t.contexts c).slave ∧ (t.contexts c).slave < 9)) := by
    cases (exec_some he).2
    refine ⟨⟨hs'.1.context, hs'.1.ctx⟩, ?_⟩
    by_cases hw : w.toNat ≤ 247
    · exact .inl (Placed.setSlave (s := s'.arrive i') ⟨hs'.1.context, hs'.1.ctx⟩ hw)
    · have hv : ¬ ((w.toNat : Int) ≤ 247) := fun hv => hw (Int.ofNat_le.1 hv)
      -- the address is the one from before, which the check refuses
      have hold : ((s'.arrive i').contexts c).slave = (s.contexts c).slave :=
        congrArg (fun f => Context.slave (f c)) hs'.2
      right
      simpa [Context.setSlave, onContext, hv, hold] using hfits.resolve_left hw
  refine ensures_op_bind.2 ⟨trivial, fun i₁ _ t₁ _ he => ?_⟩
  cases (exec_some he).2
  split
  · exact ⟨ht.1.context, ht.1.ctx⟩
  · rename_i hhigh
    refine ensures_op_bind.2 ⟨trivial, fun i₂ _ t₂ _ he => ?_⟩
    cases (exec_some he).2
    split
    · exact ⟨ht.1.context, ht.1.ctx⟩
    · rename_i hlow
      have hin : 1 ≤ (t.contexts c).slave ∧ (t.contexts c).slave < 9 :=
        ⟨Int.not_lt.1 hlow, Int.not_le.1 hhigh⟩
      have haddr := ht.2.resolve_right (not_not.2 hin)
      rw [haddr.slave] at hin
      have ht₂ : ((t.arrive i₁).arrive i₂).Addressed c w.toNat :=
        ⟨⟨haddr.context, haddr.ctx⟩, haddr.slave, haddr.asked⟩
      refine (ranged_steady (measureElectrical_steady.mono fun _ => .inl) ht₂).bind fun o t ht => ?_
      cases o with
      | none => exact ht.toPlaced
      | some r => exact ranged_storeElectrical ht (by omega) (by omega)

/-- One attempt at giving an actuator its parameters. -/
theorem ranged_setParam {a : ActuatorRegs} {s : Rs485} (hs : s.Placed c) :
    Ranged h (fun _ => Placed c) (setParam h a c) s := by
  refine ensures_op_bind.2 ⟨trivial, fun i r s' _ he => ?_⟩
  cases (exec_some he).2
  have hs' : (onContext c ({ · with slave := a.slave, asked := a.slave })
      (s.arrive i)).Addressed c a.slave := by
    refine ⟨⟨hs.context, hs.ctx⟩, ?_, ?_⟩ <;> simp [onContext]
  refine (ranged_steady (rtuSetActuatorParam_steady.mono fun _ => .inl) hs').bind fun _ s hs => ?_
  refine (ranged_steady (modbusReceiveActuator_steady.mono fun _ => .inl) hs).bind fun o s hs => ?_
  cases o with
  | none => exact hs.toPlaced
  | some f =>
      refine ensures_op_bind.2 ⟨trivial, fun i r s' _ he => ?_⟩
      cases (exec_some he).2
      exact ⟨hs.context, hs.ctx⟩

/-- One attempt at reading an actuator, for a well that has a row. -/
theorem ranged_readData {a : ActuatorRegs} {w : UInt16} {s : Rs485} (hs : s.Placed c)
    (hw : 1 ≤ w.toNat ∧ w.toNat ≤ 9) : Ranged h (fun _ => Placed c) (readData h a c w) s := by
  refine ensures_op_bind.2 ⟨trivial, fun i r s' _ he => ?_⟩
  cases (exec_some he).2
  have hs' : (onContext c ({ · with slave := a.slave, asked := a.slave })
      (s.arrive i)).Addressed c a.slave := by
    refine ⟨⟨hs.context, hs.ctx⟩, ?_, ?_⟩ <;> simp [onContext]
  refine (ranged_steady (rtuEquActuatorData_steady.mono fun _ => .inl) hs').bind fun _ s hs => ?_
  refine (ranged_steady (modbusReceiveActuator_steady.mono fun _ => .inl) hs).bind fun o s hs => ?_
  cases o with
  | none => exact hs.toPlaced
  | some f =>
      refine ensures_op_bind.2 ⟨trivial, fun i r s' _ he => ?_⟩
      cases (exec_some he).2
      split
      · have hrow : (0 : Int) ≤ (w.toNat : Int) - 1 ∧ (w.toNat : Int) - 1 < 9 := by omega
        refine ensures_op_bind.2 ⟨hrow, fun i' _ s' _ he => ?_⟩
        have hp := (exec_some he).2
        simp only [perform, if_pos hrow] at hp
        cases hp
        have hs' : ∀ f, (((s.arrive i).arrive i').onRtu f).Addressed c a.slave := fun _ =>
          ⟨⟨hs.context, hs.ctx⟩, hs.slave, hs.asked⟩
        refine (ranged_steady (storeActuator_steady.mono fun _ => .inl) (hs' _)).bind ?_
        exact fun _ _ hs => hs.toPlaced
      · exact ⟨hs.context, hs.ctx⟩

theorem ranged_dealOne {a : ActuatorRegs} {s : Rs485} (hs : s.Placed c) :
    Ranged h (fun _ => Placed c) (dealOne h a c) s := by
  refine ensures_op_bind.2 ⟨trivial, fun i w s' hfit he => ?_⟩
  have hw : 1 ≤ w.toNat ∧ w.toNat ≤ 9 := by
    cases (exec_some he).2
    exact hfit.2 rfl
  have hs' : s'.Placed c := by
    cases (exec_some he).2
    exact ⟨hs.context, hs.ctx⟩
  refine (Ensures.attempts (fun _ hs => ranged_setParam hs) 3 hs').bind fun o s hs => ?_
  cases o with
  | none => exact hs
  | some _ =>
      refine (Ensures.attempts (fun _ hs => ranged_readData hs hw) 3 hs).bind fun o s hs => ?_
      cases o <;> exact hs

theorem ranged_release {v : Ctrl} {s : Rs485} (hs : s.Placed c) :
    Ranged h (fun _ => Placed c) (release v) s := by
  refine ensures_op_bind.2 ⟨trivial, fun i r s' _ he => ?_⟩
  cases (exec_some he).2
  split
  · refine ensures_op.2 ⟨trivial, fun i r s' _ he => ?_⟩
    cases (exec_some he).2
    exact ⟨hs.context, hs.ctx⟩
  · exact ⟨hs.context, hs.ctx⟩

theorem ranged_deal {s : Rs485} (hs : s.Placed c) (hctx : s.ctx = c) :
    Ranged h (fun _ => Placed c) (dealMaster485Packet h c) s := by
  refine ensures_op_bind.2 ⟨trivial, fun i r s' _ he => ?_⟩
  cases (exec_some he).2
  have hs' : (s.arrive i).beginServing.Placed c := ⟨hs.context, hs.ctx⟩
  have hserve : ∀ {p : Serial Int} {v : Ctrl}, Ranged h (fun _ => Placed c) p
      (s.arrive i).beginServing → Ranged h (fun _ => Placed c) (do
        let rc ← p
        release v
        pure rc) (s.arrive i).beginServing := fun hp =>
    hp.bind fun _ _ hs => (ranged_release hs).bind fun _ _ hs => hs
  cases hc : (s.arrive i).ctrl with
  | electricalSync => exact hserve (ranged_timeHandleFun hs' hc)
  | electrical => exact hserve (ranged_dealWiredElectrical hs' hctx hc)
  | actuator =>
      refine hserve ((ranged_dealOne hs').bind fun _ s hs => ?_)
      exact (ranged_dealOne hs).bind fun _ s hs => hs
  | default =>
      refine ensures_op_bind.2 ⟨trivial, fun i' r s' _ he => ?_⟩
      cases (exec_some he).2
      exact ⟨hs.context, hs.ctx⟩

theorem ranged_masterWait {s : Rs485} (hs : s.ctx < s.allocated) :
    Ranged h (fun _ s => s.ctx < s.allocated) masterWait s := by
  refine ensures_op_bind.2 ⟨trivial, fun i r s' _ he => ?_⟩
  cases (exec_some he).2
  split
  · refine ensures_op_bind.2 ⟨trivial, fun i' r s' _ he => ?_⟩
    cases (exec_some he).2
    refine ensures_op.2 ⟨trivial, fun i'' r s' _ he => ?_⟩
    cases (exec_some he).2
    have hs' : (((s.arrive i).arrive i').arrive i'').Placed s.ctx := ⟨hs, hs⟩
    exact (take_context hs').1.ctx
  · exact hs

theorem ranged_masterTurn {s : Rs485} (hs : s.ctx < s.allocated) :
    Ranged h (fun _ s => s.ctx < s.allocated) (masterTurn h) s := by
  refine (ranged_masterWait hs).bind fun _ s hs => ?_
  refine ensures_op_bind.2 ⟨trivial, fun i r s' _ he => ?_⟩
  have hs' : s'.ctx < s'.allocated := by
    rw [exec_chooseOperation he]
    rcases chooseOperation_cases (s.arrive i) with hc | ⟨-, t, hc | hc⟩ <;> rw [hc] <;> exact hs
  refine ensures_op_bind.2 ⟨trivial, fun i r s' _ he => ?_⟩
  cases (exec_some he).2
  refine (ranged_deal (s := s'.arrive i) ⟨hs', hs'⟩ rfl).bind fun _ s hs => ?_
  exact hs.ctx

end Turn

/-- What is left of a turn in a run whose well numbers fit. -/
theorem ranged_rest {h : Host} {c : Config Act Act.Out Rs485}
    (hc : Runs (exec h .master) (masterTurn h) (WellNumberFits h) Starting c) :
    Ranged h (fun _ s => s.ctx < s.allocated) c.rest c.state := by
  refine reach_ensures (fun s => s.ctx < s.allocated) ?_ (fun _ hs => ranged_masterTurn hs) hc
  rintro ⟨s, p⟩ ⟨hs, rfl⟩
  exact hs.ctx

/-- **Every row is in range, and every request goes to the address asked for**, in
every run of the master that is in order. -/
theorem wellNumbers_run (h : Host) {c : Config Act Act.Out Rs485}
    (hc : Runs (exec h .master) (masterTurn h) (InOrder h) Starting c) :
    c.Good InRange :=
  good_of_ensures (ranged_rest (Runs.widen hc fun _ _ _ => InOrder.fits))

/-- Where its context is allocated and its row in range, an operation has an answer,
unless it divides by zero. -/
theorem exec_goes_on {h : Host} {e : Act} {s : Rs485} (hf : s.Follows e) (hr : s.InRange e)
    (hd : ∀ a, e ≠ .divide a 0) (i : Input) : ∃ r s', exec h .master e i s = some (r, s') := by
  rw [exec_eq hf]
  cases e with
  | send c request =>
      unfold perform
      dsimp only
      split <;> exact ⟨_, _, rfl⟩
  | stampSample row slot | clearMac row =>
      have hrow : 0 ≤ row ∧ row < 9 := hr
      unfold perform
      dsimp only
      rw [if_pos hrow]
      exact ⟨_, _, rfl⟩
  | divide a b =>
      have hb : b ≠ 0 := fun hb => hd a (hb ▸ rfl)
      unfold perform
      dsimp only
      rw [if_neg hb]
      exact ⟨_, _, rfl⟩
  | _ => exact ⟨_, _, rfl⟩

theorem Rs485.InOrder.of_ne {h : Host} {s : Rs485} {e : Act} {i : Input}
    (hown : ∀ a, e ≠ .ownWellNo a) (hselect : ∀ c, e ≠ .select c) : InOrder h s e i :=
  ⟨⟨fun he => absurd he (hown _), fun he => absurd he (hown _)⟩,
    fun c he => absurd he (hselect c)⟩

/-- The master at its first request to the electrical module. -/
theorem runs_send {h : Host} {c : Nat} {s : Rs485} {w : UInt16} {g : Int → Serial Unit}
    (halive : (s.contexts c).alive = true)
    (hread : readWord h.env s.rtu h.stack 1 elecWellNoAddr = w) (hlow : 1 ≤ w.toNat)
    (hhigh : w.toNat < 9)
    (hrun : Runs (exec h .master) (masterTurn h) (InOrder h) Starting
      ⟨s, dealWiredElectrical h c >>= g⟩) :
    ∃ (u : Rs485) (request : LineRequest) (k : Option (List UInt8) → Serial Unit),
      (u.contexts c).asked = w.toNat ∧ Runs (exec h .master) (masterTurn h) (InOrder h) Starting
        ⟨u, .call (.send c request) k⟩ := by
  let rest := calm false none ⟨0, 0⟩
  let t : Rs485 := s.onContext c (.setSlave w.toNat)
  have hv : (w.toNat : Int) ≤ 247 := by omega
  have ht : (t.contexts c).alive = true ∧ (t.contexts c).slave = w.toNat ∧
      (t.contexts c).asked = w.toNat := by
    simp [t, onContext, Context.setSlave, hv, halive]
  have hfits : InOrder h s (.ownWellNo elecWellNoAddr) rest := by
    refine ⟨⟨fun _ => .inl ?_, fun he => ?_⟩, fun c he => ?_⟩
    · show (readWord h.env s.rtu h.stack 1 elecWellNoAddr).toNat ≤ 247
      rw [hread]
      omega
    · cases he
    · cases he
  unfold dealWiredElectrical at hrun
  simp only [Prog.bind_assoc] at hrun
  have hrun := Runs.op hrun hfits ((exec_eq (follows_of_none rfl)).trans rfl)
  rw [show s.arrive rest = s from rfl, hread] at hrun
  have hrun : Runs (exec h .master) (masterTurn h) (InOrder h) Starting ⟨t, _⟩ :=
    Runs.op (i := rest) hrun (.of_ne (by simp) (by simp))
      ((exec_eq (follows_of rfl halive)).trans rfl)
  have hrun := Runs.op (i := rest) hrun (.of_ne (by simp) (by simp))
    ((exec_eq (follows_of rfl ht.1)).trans rfl)
  have hslave : (t.arrive rest).contexts = t.contexts := rfl
  rw [hslave, ht.2.1, if_neg (by omega), Prog.bind_assoc] at hrun
  have hrun := Runs.op (i := rest) hrun (.of_ne (by simp) (by simp))
    ((exec_eq (follows_of rfl ht.1)).trans rfl)
  rw [hslave, ht.2.1, if_neg (by omega)] at hrun
  -- the first thing measured is read from the address just set
  exact ⟨_, _, _, ht.2.2, hrun⟩

/-- A unit whose electrical well number is `w`, a thousand seconds after it was started. -/
def wellUnit (w : UInt16) : Rtu :=
  { Rtu.start { emptyMap 38 (fun _ => 0) (fun _ => 0) with
      ramX := fun k => if k = 17 then w else 0 } with time := 1000 }

theorem Act.Loop.inOrder {h : Host} {s : Rs485} {e : Act} {i : Input} (he : e.Loop) :
    InOrder h s e i := by
  refine .of_ne ?_ ?_
  · rintro a rfl
    exact he.elim
  · rintro c rfl
    exact he.elim

/-- The master reads the well number 3 and sends its first request, to the address 3. -/
theorem wellThree_inRange : ∃ (s : Rs485) (request : LineRequest)
    (k : Option (List UInt8) → Serial Unit), (s.contexts 0).asked = 3 ∧
      Config.Good InRange (⟨s, .call (.send 0 request) k⟩ : Config Act Act.Out Rs485) := by
  let h := Host.bare (.bare fun _ => none)
  have hfree : ∀ s e i, Act.Loop e → InOrder h s e i := fun _ _ _ => Act.Loop.inOrder
  have hrun := runs_waited (h := h) (s := startedMaster)
    (i := ⟨fun _ => wellUnit 3, false, none, [], ⟨0, 0⟩⟩) rfl rfl hfree
    (Runs.again (.start startedMaster_starting))
  obtain ⟨g, hrun⟩ := runs_electrical (by decide) (by decide) hfree hrun
  obtain ⟨s, request, k, hasked, hrun⟩ := runs_send (w := 3) rfl (by decide) (by decide)
    (by decide) hrun
  exact ⟨s, request, k, hasked, wellNumbers_run h hrun⟩

/-! ### The stale address -/

/-- `deal_wired_electrical` with a well number above 247, the context having an address
that passes the check. -/
theorem not_ranged_electrical {h : Host} {c : Nat} {s : Rs485} {i : Input}
    {post : Int → Rs485 → Prop} (halive : (s.contexts c).alive = true)
    (hslave : 1 ≤ (s.contexts c).slave ∧ (s.contexts c).slave < 9)
    (hw : 247 < (readWord h.env (i.others s.rtu) h.stack 1 elecWellNoAddr).toNat) :
    ¬ Ensures (exec h .master) (fun _ _ _ => True) InRange post (dealWiredElectrical h c) s := by
  intro hE
  set w := readWord h.env (i.others s.rtu) h.stack 1 elecWellNoAddr
  have hread : exec h .master (.ownWellNo elecWellNoAddr) i s = some (w, s.arrive i) :=
    exec_eq nofun
  have hE := (ensures_op_bind.1 hE).2 i _ _ trivial hread
  have hset : exec h .master (.setSlave c w.toNat) i (s.arrive i) =
      some ((), ((s.arrive i).arrive i).onContext c (.setSlave w.toNat)) := by
    refine exec_eq ?_
    rintro _ ⟨⟩
    exact halive
  have hE := (ensures_op_bind.1 hE).2 i _ _ trivial hset
  set t := ((s.arrive i).arrive i).onContext c (.setSlave w.toNat) with ht
  have hv : ¬ ((w.toNat : Int) ≤ 247) := fun hv => Nat.not_lt.2 (Int.ofNat_le.1 hv) hw
  have hold : (t.contexts c).slave = (s.contexts c).slave := by
    simp [ht, onContext, Context.setSlave, arrive, hv]
  have hasked : (t.contexts c).asked = w.toNat := by simp [ht, onContext, Context.setSlave]
  have hget : ∀ t' : Rs485, t'.contexts = t.contexts →
      exec h .master (.getSlave c) i t' = some ((t.contexts c).slave, t'.arrive i) := by
    intro t' ht'
    rw [← ht']
    refine exec_eq ?_
    rintro _ ⟨⟩
    rw [ht']
    simpa [ht, onContext, Context.setSlave, arrive] using halive
  have hE := (ensures_op_bind.1 hE).2 i _ _ trivial (hget t rfl)
  rw [if_neg (by rw [hold]; omega)] at hE
  have hE := (ensures_op_bind.1 hE).2 i _ _ trivial (hget (t.arrive i) rfl)
  rw [if_neg (by rw [hold]; omega)] at hE
  -- the first thing measured is read from the old address
  have hE := ensures_bind.1 (ensures_bind.1 (ensures_bind.1 hE))
  have hsend := (ensures_op_bind.1 (ensures_bind.1 hE)).1
  have haddr : (t.contexts c).slave = (t.contexts c).asked := hsend
  rw [hold, hasked] at haddr
  omega

/-- A turn of the master in which the electrical module is due. -/
theorem not_ranged_turn {h : Host} {s : Rs485} {u : Rtu} {post : Unit → Rs485 → Prop}
    (halive : (s.contexts s.ctx).alive = true)
    (hslave : 1 ≤ (s.contexts s.ctx).slave ∧ (s.contexts s.ctx).slave < 9)
    (hctrl : s.ctrl = .default)
    (hdue : UInt32.ofInt u.time - s.electricalSampleTime > s.electricalSampleInterval.toUInt32)
    (hw : 247 < (readWord h.env u h.stack 1 elecWellNoAddr).toNat) :
    ¬ Ensures (exec h .master) (fun _ _ _ => True) InRange post (masterTurn h) s := by
  intro hE
  let i : Input := ⟨fun _ => u, false, none, [], ⟨0, 0⟩⟩
  have hgo : ∀ (e : Act) (t t' : Rs485) (r : e.Out), t.Follows e →
      perform h .master e i (t.arrive i) = some (r, t') →
      exec h .master e i t = some (r, t') := fun e t t' r hf hp => (exec_eq hf).trans hp
  let s₀ := s.arrive i
  let t : Rs485 := { s₀ with electricalSampleTime := UInt32.ofInt u.time, ctrl := .electrical }
  have hwait := (ensures_op_bind.1 (ensures_bind.1 hE)).2 i s.ctrl s₀ trivial
    (hgo _ _ _ _ nofun rfl)
  rw [if_pos (by rw [hctrl]; exact nofun)] at hwait
  have hfollows : s₀.Follows (.waitMsg s.ctx) := by
    rintro _ ⟨⟩
    exact halive
  have hwait := (ensures_op_bind.1 hwait).2 i s.ctx s₀ trivial (hgo _ _ _ _ nofun rfl)
  have hrest := (ensures_op.1 hwait).2 i () s₀ trivial (hgo _ _ _ _ hfollows rfl)
  have hchoose : s₀.chooseOperation = t := if_pos ⟨hdue, hctrl⟩
  have hrest := (ensures_op_bind.1 hrest).2 i () t trivial
    (hgo _ _ _ _ nofun (congrArg (fun t => some ((), t)) hchoose))
  have hdeal := (ensures_op_bind.1 hrest).2 i s.ctx t trivial (hgo _ _ _ _ nofun rfl)
  have hdeal := (ensures_op_bind.1 (ensures_bind.1 hdeal)).2 i .electrical t.beginServing trivial
    (hgo _ _ _ _ nofun rfl)
  exact not_ranged_electrical (s := t.beginServing) (i := i) halive hslave hw
    (ensures_bind.1 hdeal)

/-- The first turn of a master whose unit has a well number of 300 reads the electrical
module, and sends to the address 1. -/
theorem stale_address : ¬ ∀ (h : Host) (c : Config Act Act.Out Rs485),
    Runs (exec h .master) (masterTurn h) (fun _ _ _ => True) Starting c → c.Good InRange := by
  intro hgood
  let h := Host.bare (.bare fun _ => none)
  have hrun : Runs (exec h .master) (masterTurn h) (fun _ _ _ => True) Starting
      ⟨startedMaster, masterTurn h⟩ :=
    Runs.again (.start startedMaster_starting)
  have hfresh := startedMaster_starts.context
  refine not_ranged_turn (u := wellUnit 300) ?_ ?_ startedMaster_starts.ctrl ?_ ?_
    (ensures_of_runs (hgood h) hrun)
  · rw [hfresh]
    rfl
  · rw [hfresh]
    decide
  · decide
  · decide

end RtuA118
