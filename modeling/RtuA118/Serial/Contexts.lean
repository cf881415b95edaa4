import RtuA118.Serial.Frame

/-!
# RtuA118.Serial.Contexts

No use of a **freed context**, unless a thread's settings change under its feet.

The loop of either thread follows the variable `ctx`, which names an allocated
context whenever the loop is at its head. An operation holds on to the context it
was given. The handler frees that context when it finds the port settings
changed; if it runs below a receive, the receive goes on with the freed one. In
every run without such a message every context followed is allocated
(`contexts_run`); with one, the next operation of the receive follows the freed
context (`freed_below_receive`).
-/

namespace RtuA118

open Program Serial

namespace Rs485

/-- The variable `ctx` names an allocated context. -/
def Holds (s : Rs485) : Prop := (s.contexts s.ctx).alive = true

/-- It names the context `c`, and that is allocated. -/
def HoldsOn (c : Nat) (s : Rs485) : Prop := s.ctx = c ∧ (s.contexts c).alive = true

theorem HoldsOn.holds {c : Nat} {s : Rs485} (hs : s.HoldsOn c) : s.Holds := by
  obtain ⟨rfl, ha⟩ := hs
  exact ha

/-- No wait below a receive hands over a `MSG_CONFIG_START` that finds the port
settings changed. -/
def SettledBelow (h : Host) (role : Role) (s : Rs485) (e : Act) (i : Input) : Prop :=
  ∀ c, e = .select c → i.ready = true → i.msg = some .configStart →
    ¬ (s.arrive i).Reconfigures h role

variable {h : Host} {role : Role} {c : Nat} {s s' : Rs485}

theorem Frame.holdsOn (hf : s.Frame s') (hs : s.HoldsOn c) : s'.HoldsOn c :=
  ⟨hf.ctx.trans hs.1, (hf.alive c).trans hs.2⟩

/-- A wait keeps the context held, unless it renews it. -/
theorem HoldsOn.take {i : Input} (hs : s.HoldsOn c)
    (hset : i.ready = true → i.msg = some .configStart → ¬ s.Reconfigures h role) :
    (s.take h role i).HoldsOn c := by
  unfold Rs485.take
  split
  · rename_i msg hready hmsg
    rcases msgHandler_cases h role msg s with ⟨hf, -⟩ | ⟨t, n, m, g, -, hp⟩ | ⟨rfl, hre, -⟩
    · exact hf.holdsOn hs
    · rw [hp]
      exact hs
    · exact absurd hre (hset hready hmsg)
  · exact hs

/-- After a wait of the loop the variable names an allocated context again. -/
theorem Holds.take {i : Input} (hs : s.Holds) : (s.take h role i).Holds := by
  unfold Rs485.take
  split
  · rename_i msg _ _
    rcases msgHandler_cases h role msg s with ⟨hf, -⟩ | ⟨t, n, m, g, -, hp⟩ | ⟨-, -, hre⟩
    · exact (hf.holdsOn ⟨rfl, hs⟩).holds
    · rw [hp]
      exact hs
    · rw [hre]
      simp [Holds, renew, Context.fresh]
  · exact hs

/-- One operation of the master's work keeps the context it holds. -/
theorem HoldsOn.within {e : Act} (hs : s.HoldsOn c) (hk : e.WithinRun c) :
    s.Follows e ∧ ∀ i r s', SettledBelow h role s e i → exec h role e i s = some (r, s') →
      s'.HoldsOn c := by
  constructor
  · intro c' hc'
    have hcc : c' = c := by
      rcases hk with hk | ⟨k, rfl⟩ | ⟨a, b, rfl⟩
      · cases e <;> cases hc' <;> first | exact hk | exact hk.elim
      · cases hc'
      · cases hc'
    exact hcc ▸ hs.2
  · intro i r s' hset he
    rcases exec_within hk he with ⟨rfl, rfl⟩ | ⟨-, hf⟩
    · exact HoldsOn.take (s := s.arrive i) hs (hset c rfl)
    · exact hf.holdsOn hs

end Rs485

open Rs485

section Turn

variable {h : Host} {role : Role} {α : Type}

/-- A program that follows allocated contexts from here on, and ends where `post`
holds. -/
abbrev Sound (h : Host) (role : Role) (post : α → Rs485 → Prop) : Serial α → Rs485 → Prop :=
  Ensures (exec h role) (SettledBelow h role) Follows post

/-- The master's work over the context it holds. -/
theorem sound_within {p : Serial α} {c : Nat} {s : Rs485} (hp : p.Only (Act.WithinRun c))
    (hs : s.HoldsOn c) : Sound h role (fun _ => HoldsOn c) p s :=
  hp.ensures (fun _ _ hs hk => hs.within hk) hs

theorem sound_release {v : Ctrl} {s : Rs485} (hs : s.Holds) :
    Sound h role (fun _ => Holds) (release v) s := by
  refine ensures_op_bind.2 ⟨nofun, fun i r s' _ he => ?_⟩
  cases (exec_some he).2
  split
  · refine ensures_op.2 ⟨nofun, fun i r s' _ he => ?_⟩
    cases (exec_some he).2
    exact hs
  · exact hs

/-- Work, and the control handed back. -/
theorem sound_serve {p : Serial Int} {v : Ctrl} {c : Nat} {s : Rs485}
    (hp : p.Only (Act.WithinRun c)) (hs : s.HoldsOn c) :
    Sound h role (fun _ => Holds) (do
      let rc ← p
      release v
      pure rc) s :=
  (sound_within hp hs).bind fun _ _ hs => (sound_release hs.holds).bind fun _ _ hs => hs

theorem sound_deal {c : Nat} {s : Rs485} (hs : s.HoldsOn c) :
    Sound h role (fun _ => Holds) (dealMaster485Packet h c) s := by
  refine ensures_op_bind.2 ⟨nofun, fun i r s' _ he => ?_⟩
  cases (exec_some he).2
  have hs' : HoldsOn c (s.arrive i).beginServing := hs
  cases (s.arrive i).ctrl with
  | electricalSync => exact sound_serve timeHandleFun_withinRun hs'
  | electrical => exact sound_serve (dealWiredElectrical_within.mono fun _ => .inl) hs'
  | actuator => exact sound_serve (dealWiredActuator_within.mono fun _ => .inl) hs'
  | default =>
      refine ensures_op_bind.2 ⟨nofun, fun i r s' _ he => ?_⟩
      cases (exec_some he).2
      exact hs.holds

theorem sound_masterWait {s : Rs485} (hs : s.Holds) :
    Sound h role (fun _ => Holds) masterWait s := by
  refine ensures_op_bind.2 ⟨nofun, fun i r s' _ he => ?_⟩
  cases (exec_some he).2
  split
  · refine ensures_op_bind.2 ⟨nofun, fun i r s' _ he => ?_⟩
    cases (exec_some he).2
    refine ensures_op.2 ⟨?_, fun i r s' _ he => ?_⟩
    · rintro c hc
      cases hc
      exact hs
    · cases (exec_some he).2
      exact Holds.take hs
  · exact hs

theorem sound_masterTurn {s : Rs485} (hs : s.Holds) :
    Sound h role (fun _ => Holds) (masterTurn h) s := by
  refine (sound_masterWait hs).bind fun _ s hs => ?_
  refine ensures_op_bind.2 ⟨nofun, fun i r s' _ he => ?_⟩
  have hs' : Holds s' := by
    rw [exec_chooseOperation he]
    rcases chooseOperation_cases (s.arrive i) with hc | ⟨-, t, hc | hc⟩ <;> rw [hc] <;> exact hs
  refine ensures_op_bind.2 ⟨nofun, fun i r s' _ he => ?_⟩
  cases (exec_some he).2
  have hon : HoldsOn (s'.arrive i).ctx (s'.arrive i) := ⟨rfl, hs'⟩
  exact (sound_deal hon).bind fun _ _ hs => hs

theorem sound_slaveTurn {s : Rs485} (hs : s.Holds) :
    Sound h role (fun _ => Holds) slaveTurn s := by
  refine ensures_op_bind.2 ⟨nofun, fun i r s' _ he => ?_⟩
  cases (exec_some he).2
  have hrecv : (modbusReceiveMsg s.ctx .indication).Only (Act.WithinRun s.ctx) :=
    modbusReceiveMsg_onWire.mono fun _ h => .inl h.steady.within
  have hs' : (s.arrive i).HoldsOn s.ctx := ⟨rfl, hs⟩
  refine (sound_within hrecv hs').bind fun o s hs => ?_
  · cases o with
    | none => exact hs.holds
    | some req =>
        refine ensures_op_bind.2 ⟨nofun, fun i r s' _ he => ?_⟩
        cases (exec_some he).2
        refine ensures_op.2 ⟨?_, fun i r s' _ he => ?_⟩
        · rintro c hc
          cases hc
          exact hs.holds
        · cases (exec_some he).2
          exact hs.holds

end Turn

theorem sound_turn {h : Host} {role : Role} {s : Rs485} (hs : s.Holds) :
    Sound h role (fun _ => Holds) (role.turn h) s := by
  cases role with
  | master => exact sound_masterTurn hs
  | slave => exact sound_slaveTurn hs

/-- What is left of a turn in such a run. -/
theorem sound_rest {h : Host} {role : Role} {c : Config Act Act.Out Rs485}
    (hc : Runs (exec h role) (role.turn h) (SettledBelow h role) Starting c) :
    Sound h role (fun _ => Holds) c.rest c.state := by
  refine reach_ensures Holds ?_ (fun s hs => sound_turn hs) hc
  rintro ⟨s, p⟩ ⟨hs, rfl⟩
  show Holds s
  rw [Holds, hs.context]
  rfl

/-- **Every context followed is allocated**, in every run in which no wait below a
receive finds the settings changed. -/
theorem contexts_run (h : Host) (role : Role) {c : Config Act Act.Out Rs485}
    (hc : Runs (exec h role) (role.turn h) (SettledBelow h role) Starting c) :
    c.Good Follows :=
  good_of_ensures (sound_rest hc)

/-- A unit whose port registers of the slave hold 8 bits, 1 stop bit, no parity, and
this code for the rate. -/
def portUnit (rate : UInt16) : Rtu :=
  .start { emptyMap 38 (fun _ => 0) (fun _ => 0) with
    ramX := fun k => if k = 33 then rate else if k = 34 then 1 else 0 }

/-- A slave that has just been started at 9600 bit/s. -/
def startedSlave : Rs485 :=
  .start (.bare (.bare fun _ => none)) .slave tempSettings (fun _ => 0) ⟨0, 0, 0⟩ (portUnit 3)

theorem startedSlave_starts : startedSlave.Starts := Rs485.start_starts

section Reached

variable {h : Host} {s : Rs485} {i : Input} {allowed : Rs485 → Act → Input → Prop}

/-- The slave after the first wait of its receive. -/
theorem runs_received (hs : s.Holds) (hready : i.ready = true)
    (hset : ¬ (s.arrive i).Reconfigures h .slave)
    (hrun : Runs (exec h .slave) slaveTurn (SettledBelow h .slave) Starting ⟨s, slaveTurn⟩) :
    ∃ k, Runs (exec h .slave) slaveTurn (SettledBelow h .slave) Starting
      ⟨(s.arrive i).take h .slave i, .call (.recv s.ctx 2) k⟩ := by
  have hrun := Runs.call (e := .getCtx) (i := calm false none ⟨0, 0⟩) hrun nofun
    ((exec_eq (follows_of_none rfl)).trans rfl)
  dsimp only [Prog.bind, modbusReceiveMsg] at hrun
  rw [receive, dif_neg (Nat.succ_ne_zero _)] at hrun
  simp only [Prog.bind_assoc] at hrun
  have hrun := Runs.op (e := .select s.ctx) (i := i) hrun ?_
    ((exec_eq (follows_of rfl hs)).trans rfl)
  · rw [hready, if_pos rfl] at hrun
    exact ⟨_, hrun⟩
  · rintro c ⟨⟩ - -
    exact hset

/-- What a turn of the master does after its own wait. -/
def afterWait (h : Host) : Serial Unit := do
  chooseOperation
  let c ← getCtx
  let _ ← dealMaster485Packet h c

/-- The master after its own wait. -/
theorem runs_waited (hs : s.Holds) (hctrl : s.ctrl = .default)
    (hfree : ∀ s e i, Act.Loop e → allowed s e i)
    (hrun : Runs (exec h .master) (masterTurn h) allowed Starting ⟨s, masterTurn h⟩) :
    Runs (exec h .master) (masterTurn h) allowed Starting
      ⟨(s.arrive i).take h .master i, afterWait h⟩ := by
  let rest := calm false none ⟨0, 0⟩
  have hctrl' : (s.arrive rest).ctrl ≠ .electricalSync := fun hc => nomatch hctrl.symm.trans hc
  have hrun := Runs.call hrun (hfree _ .getCtrl rest trivial)
    ((exec_eq (follows_of_none rfl)).trans rfl)
  dsimp only [Prog.bind] at hrun
  rw [if_pos hctrl'] at hrun
  have hrun := Runs.call hrun (hfree _ .getCtx rest trivial)
    ((exec_eq (follows_of_none rfl)).trans rfl)
  exact Runs.call hrun (hfree _ (.waitMsg s.ctx) i trivial)
    ((exec_eq (follows_of rfl hs)).trans rfl)

/-- The master whose electrical module is due, as it starts on it. -/
theorem runs_electrical (hctrl : s.ctrl = .default)
    (hdue : UInt32.ofInt s.rtu.time - s.electricalSampleTime >
      s.electricalSampleInterval.toUInt32) (hfree : ∀ s e i, Act.Loop e → allowed s e i)
    (hrun : Runs (exec h .master) (masterTurn h) allowed Starting ⟨s, afterWait h⟩) :
    ∃ g, Runs (exec h .master) (masterTurn h) allowed Starting
      ⟨{ s with
          electricalSampleTime := UInt32.ofInt s.rtu.time
          ctrl := .electrical
          serving := .electrical }, dealWiredElectrical h s.ctx >>= g⟩ := by
  let rest := calm false none ⟨0, 0⟩
  have hchoose : (s.arrive rest).chooseOperation = { s with
      electricalSampleTime := UInt32.ofInt s.rtu.time, ctrl := .electrical } := if_pos ⟨hdue, hctrl⟩
  unfold afterWait at hrun
  have hrun := Runs.op hrun (hfree _ .chooseOperation rest trivial)
    ((exec_eq (follows_of_none rfl)).trans rfl)
  rw [hchoose] at hrun
  have hrun := Runs.op hrun (hfree _ .getCtx rest trivial)
    ((exec_eq (follows_of_none rfl)).trans rfl)
  unfold dealMaster485Packet at hrun
  rw [Prog.bind_assoc] at hrun
  have hrun := Runs.op hrun (hfree _ .switchCtrl rest trivial)
    ((exec_eq (follows_of_none rfl)).trans rfl)
  exact ⟨_, Prog.bind_assoc _ _ _ ▸ hrun⟩

end Reached

/-- A unit whose port registers of the master hold 8 bits, 1 stop bit, no parity and
19200 bit/s, a thousand seconds after it was started. -/
def masterPortUnit : Rtu :=
  { Rtu.start { emptyMap 180 (fun _ => 0) (fun _ => 0) with
      ramX := fun k => if k = 171 then 4 else if k = 172 then 1 else 0 } with time := 1000 }

/-- A slave receives a `MSG_CONFIG_START` in its receive, nothing having changed, and
goes on with its context; a master receives one in its own wait, its port having
changed, and sets the address of the new context. -/
theorem settings_follow :
    (∃ k : List UInt8 → Serial Unit, Config.Good Follows
      (⟨startedSlave.take (.bare (.bare fun _ => none)) .slave
        (calm true (some .configStart) ⟨0, 0⟩), .call (.recv 0 2) k⟩ :
        Config Act Act.Out Rs485)) ∧
    ∃ (s : Rs485) (w : Int) (k : Unit → Serial Unit), s.ctx = 1 ∧
      Config.Good Follows (⟨s, .call (.setSlave 1 w) k⟩ : Config Act Act.Out Rs485) := by
  let h := Host.bare (.bare fun _ => none)
  constructor
  · obtain ⟨k, hk⟩ := runs_received (h := h) (s := startedSlave)
      (i := calm true (some .configStart) ⟨0, 0⟩) rfl rfl (by decide)
      (Runs.again (.start ⟨startedSlave_starts, rfl⟩))
    exact ⟨k, contexts_run h .slave hk⟩
  · have hfree : ∀ s e i, Act.Loop e → SettledBelow h .master s e i := by
      rintro _ _ _ he c rfl
      exact he.elim
    have hrun := runs_waited (h := h) (s := startedMaster)
      (i := ⟨fun _ => masterPortUnit, true, some .configStart, [], ⟨0, 0⟩⟩) rfl rfl hfree
      (Runs.again (.start startedMaster_starting))
    obtain ⟨g, hrun⟩ := runs_electrical (by decide) (by decide) hfree hrun
    have hrun := Runs.op (e := .ownWellNo elecWellNoAddr) (i := calm false none ⟨0, 0⟩) hrun nofun
      ((exec_eq (follows_of_none rfl)).trans rfl)
    exact ⟨_, _, _, rfl, contexts_run h .master hrun⟩

/-! ### The freed context -/

theorem renew_frees {p : PortSettings} {s : Rs485} (hlt : s.ctx < s.allocated) :
    ((s.renew p).contexts s.ctx).alive = false := by
  simp [renew, Nat.ne_of_lt hlt]

/-- A receive whose first wait renews the context goes on with the one freed. -/
theorem not_sound_receive {h : Host} {role : Role} {r : FrameRule} {c : Nat} {st : RecvState}
    {s : Rs485} {i : Input} {post : Option (List UInt8) → Rs485 → Prop} (hs : s.HoldsOn c)
    (hlt : c < s.allocated) (hlen : st.lengthToRead ≠ 0) (hready : i.ready = true)
    (hmsg : i.msg = some .configStart) (hre : (s.arrive i).Reconfigures h role) :
    ¬ Ensures (exec h role) (fun _ _ _ => True) Follows post (receive r c st) s := by
  intro hE
  rw [receive, dif_neg hlen, ensures_op_bind] at hE
  have hf : s.Follows (.select c) := by
    rintro c' hc'
    cases hc'
    exact hs.2
  have htake : (s.arrive i).take h role i =
      ((s.arrive i).readPortInfo h role).renew ((s.arrive i).foundSettings h role) := by
    simp [Rs485.take, hready, hmsg, Rs485.msgHandler, hre]
  have hstep : exec h role (.select c) i s = some (true, (s.arrive i).take h role i) := by
    rw [exec_eq hf, ← hready]
    rfl
  have hrest := hE.2 i _ _ trivial hstep
  rw [if_pos rfl, ensures_op_bind] at hrest
  -- the context is dead by now, and the next operation reads from it
  have halive := hrest.1 c rfl
  have hctx : ((s.arrive i).readPortInfo h role).ctx = c ∧
      ((s.arrive i).readPortInfo h role).allocated = s.allocated := by
    unfold readPortInfo
    split <;> exact ⟨hs.1, rfl⟩
  have hfreed := renew_frees (p := (s.arrive i).foundSettings h role)
    (s := (s.arrive i).readPortInfo h role) (by rwa [hctx.1, hctx.2])
  rw [hctx.1] at hfreed
  rw [htake, hfreed] at halive
  cases halive

/-- A slave at 9600 bit/s is sent a `MSG_CONFIG_START` after 19200 was written, and
receives it in its receive. -/
theorem freed_below_receive : ¬ ∀ (h : Host) (role : Role) (c : Config Act Act.Out Rs485),
    Runs (exec h role) (role.turn h) (fun _ _ _ => True) Starting c → c.Good Follows := by
  intro hgood
  let h := Host.bare (.bare fun _ => none)
  let s := startedSlave
  let i : Input := ⟨fun _ => portUnit 4, true, some .configStart, [], ⟨0, 0⟩⟩
  have hrun : Runs (exec h .slave) (Role.slave.turn h) (fun _ _ _ => True) Starting
      ⟨s, slaveTurn⟩ :=
    Runs.again (.start ⟨startedSlave_starts, rfl⟩)
  have hE := ensures_of_runs (hgood h .slave) hrun
  have hctx : exec h .slave .getCtx i s = some (0, s.arrive i) := exec_eq nofun
  have hE := ensures_bind.1 (ensures_bind.1 ((ensures_op_bind.1 hE).2 i _ _ trivial hctx))
  have hon : HoldsOn 0 (s.arrive i) := ⟨rfl, rfl⟩
  have hre : ((s.arrive i).arrive i).Reconfigures h .slave := by decide
  exact not_sound_receive hon Nat.one_pos (Nat.succ_ne_zero _) rfl rfl hre hE

end RtuA118
