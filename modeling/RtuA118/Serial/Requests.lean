import Mathlib.Data.List.Chain
import RtuA118.Serial.WellNumbers

/-!
# RtuA118.Serial.Requests

What becomes of the **requests for a synchronised sampling**.

`history` lists the requests as they are received and the runs as they are
started. At the head of the master's loop a request that is last in it is still
**pending**: `master_485_ctrl` asks for a run and `syn_along_info` holds its
parameters (`Pending`), and the turn starts that run before anything else. Within
a run the parameters are looked at before the first wait.

A request received during a run is lost: the run's end takes back the control the
request had just asked for (`request_lost`). In every run of the thread in which
that does not happen, and which is in order besides (`RtuA118.Serial.WellNumbers`), each
request is answered (`requests_run`): the thread goes on until it is.
-/

namespace RtuA118

open Program Serial

/-- What may come next after an event: a request is followed by another, or by a run
with its parameters. -/
def SynEvent.Next : SynEvent → SynEvent → Prop
  | .requested p, .started q => q = p
  | _, _ => True

namespace Rs485

/-- The last request, if no run was started since, has its parameters and the control. -/
def Pending (s : Rs485) : Prop :=
  s.history.IsChain SynEvent.Next ∧
    ∀ p, s.history.getLast? = some (.requested p) → s.ctrl = .electricalSync ∧ s.synAlongInfo = p

/-- A run with these parameters is in progress, and nothing was requested since. -/
structure Running (p : SynInfo) (s : Rs485) : Prop where
  chain : s.history.IsChain SynEvent.Next
  last : s.history.getLast? = some (.started p)
  serving : s.serving = .electricalSync
  synAlongInfo : s.synAlongInfo = p

/-- The parameters that are looked at are those of the run that was last started. -/
def ParametersIntact (s : Rs485) (e : Act) : Prop :=
  ∀ k, e = .syn k → ∃ p, s.history.getLast? = some (.started p) ∧ s.synAlongInfo.word k = p.word k

/-- No wait of a sampling run receives a request. -/
def NoRequestInRun (s : Rs485) (e : Act) (i : Input) : Prop :=
  ∀ c, e = .select c → s.serving = .electricalSync → i.ready = true →
    ∀ t n m g, i.msg ≠ some (.loadElecSysn t n m g)

/-- No request is received in a sampling run, and the run of the thread is in order. -/
structure Undisturbed (h : Host) (s : Rs485) (e : Act) (i : Input) : Prop
    extends InOrder h s e i where
  request : s.NoRequestInRun e i

/-- What holds at every operation: the parameters looked at are the run's own, the
history is in order, and only a run that was started divides. -/
structure RunIntact (s : Rs485) (e : Act) : Prop where
  parameters : s.ParametersIntact e
  chain : s.history.IsChain SynEvent.Next
  divides : ∀ a b, e = .divide a b → ∃ p, s.history.getLast? = some (.started p)

theorem Running.pending {p : SynInfo} {s : Rs485} (hs : s.Running p) : s.Pending := by
  refine ⟨hs.chain, fun q hq => ?_⟩
  rw [hs.last] at hq
  cases hq

theorem isChain_snoc {l : List SynEvent} {e : SynEvent} (hl : l.IsChain SynEvent.Next)
    (he : ∀ p q, l.getLast? = some (.requested p) → e = .started q → q = p) :
    (l ++ [e]).IsChain SynEvent.Next := by
  rw [List.isChain_append]
  refine ⟨hl, List.isChain_singleton e, fun x hx y hy => ?_⟩
  cases hy
  cases x with
  | started p => trivial
  | requested p =>
      cases e with
      | requested q => trivial
      | started q => exact he p q hx rfl

variable {h : Host} {role : Role} {s s' : Rs485}

theorem Frame.pending (hf : s.Frame s') (hs : s.Pending) : s'.Pending := by
  rw [Pending, hf.history, hf.ctrl, hf.synAlongInfo]
  exact hs

/-- The run of a request that is pending. -/
theorem Pending.running (hs : s.Pending) (hc : s.ctrl = .electricalSync) :
    s.beginServing.Running s.synAlongInfo := by
  have hhist : s.beginServing.history = s.history ++ [.started s.synAlongInfo] := if_pos hc
  refine ⟨?_, ?_, hc, rfl⟩
  · rw [hhist]
    refine isChain_snoc hs.1 fun p q hp hq => ?_
    cases hq
    exact (hs.2 p hp).2
  · rw [hhist, List.getLast?_concat]

theorem Pending.beginServing (hs : s.Pending) (hc : s.ctrl ≠ .electricalSync) :
    s.beginServing.Pending := by
  rw [Pending, show s.beginServing.history = s.history from if_neg hc]
  exact hs

/-- A wait keeps what is pending, or takes a new request. -/
theorem Pending.take {i : Input} (hs : s.Pending) : (s.take h role i).Pending := by
  unfold Rs485.take
  split
  · rename_i msg _ _
    rcases msgHandler_cases h role msg s with ⟨hf, -⟩ | ⟨t, n, m, g, -, hp⟩ | ⟨-, -, hre⟩
    · exact hf.pending hs
    · rw [hp]
      refine ⟨isChain_snoc hs.1 nofun, fun q hq => ⟨rfl, ?_⟩⟩
      simpa using hq
    · rw [hre]
      unfold readPortInfo
      split <;> exact hs
  · exact hs

theorem Frame.running {p : SynInfo} (hf : s.Frame s') (hs : s.Running p) : s'.Running p :=
  ⟨hf.history ▸ hs.chain, hf.history ▸ hs.last, hf.serving.trans hs.serving,
    hf.synAlongInfo.trans hs.synAlongInfo⟩

theorem Running.take {p : SynInfo} {i : Input} (hs : s.Running p)
    (hno : i.ready = true → ∀ t n m g, i.msg ≠ some (.loadElecSysn t n m g)) :
    (s.take h role i).Running p := by
  unfold Rs485.take
  split
  · rename_i msg hready hmsg
    rcases msgHandler_cases h role msg s with ⟨hf, -⟩ | ⟨t, n, m, g, rfl, -⟩ | ⟨-, -, hre⟩
    · exact hf.running hs
    · exact absurd hmsg (hno hready t n m g)
    · rw [hre]
      unfold readPortInfo
      split <;> exact ⟨hs.chain, hs.last, hs.serving, hs.synAlongInfo⟩
  · exact hs

/-- The history only grows. -/
theorem exec_history {e : Act} {i : Input} {r : e.Out}
    (he : exec h role e i s = some (r, s')) : s.history <+: s'.history := by
  have htake : ∀ s : Rs485, s.history <+: (s.take h role i).history := by
    intro s
    unfold Rs485.take
    split
    · rename_i msg _ _
      rcases msgHandler_cases h role msg s with ⟨hf, -⟩ | ⟨t, n, m, g, -, hp⟩ | ⟨-, -, hre⟩
      · exact hf.history ▸ List.prefix_rfl
      · rw [hp]
        exact List.prefix_append _ _
      · rw [hre]
        unfold readPortInfo
        split <;> exact List.prefix_rfl
    · exact List.prefix_rfl
  have hwithin : ∀ c, e.WithinRun c → s.history <+: s'.history := by
    intro c hk
    rcases exec_within hk he with ⟨-, rfl⟩ | ⟨-, hf⟩
    · exact htake (s.arrive i)
    · exact hf.history ▸ List.prefix_rfl
  -- a message taken and a request begun add to it
  cases e with
  | getCtx | getCtrl | setCtrl _ | reply _ _ =>
      cases (exec_some he).2
      exact List.prefix_rfl
  | waitMsg c =>
      cases (exec_some he).2
      exact htake (s.arrive i)
  | chooseOperation =>
      rw [exec_chooseOperation he]
      rcases chooseOperation_cases (s.arrive i) with hc | ⟨-, t, hc | hc⟩ <;> rw [hc] <;>
        exact List.prefix_rfl
  | switchCtrl =>
      cases (exec_some he).2
      unfold beginServing
      dsimp only
      split
      · exact List.prefix_append _ _
      · exact List.prefix_rfl
  | syn k => exact hwithin 0 (.inr (.inl ⟨k, rfl⟩))
  | divide a b => exact hwithin 0 (.inr (.inr ⟨a, b, rfl⟩))
  | send c _ | select c | recv c _ | touch c | setSlave c _ | putSlave c _ | getSlave c =>
      exact hwithin c (.inl rfl)
  | time | gettimeofday | timerSleep _ | ownWellNo _ | readWord _ _ _ | readWords _ _ _
  | writeWords _ _ _ | saveTime _ _ | stampSample _ _ | clearMac _ =>
      exact hwithin 0 (.inl trivial)

end Rs485

open Rs485

/-! ### One turn -/

section Turn

variable {h : Host} {α : Type}

/-- A program of the master whose sampling runs are left alone from here on, and that
ends where `post` holds. -/
abbrev Serves (h : Host) (post : α → Rs485 → Prop) : Serial α → Rs485 → Prop :=
  Ensures (exec h .master) NoRequestInRun RunIntact post

/-- An operation of the loop, or of work that is no run. -/
theorem Rs485.Pending.runIntact {s : Rs485} {e : Act} (hs : s.Pending)
    (hsyn : ∀ k, e ≠ .syn k) (hdiv : ∀ a b, e ≠ .divide a b) : s.RunIntact e :=
  ⟨fun k hk => absurd hk (hsyn k), hs.1, fun a b hk => absurd hk (hdiv a b)⟩

/-- Work that does not look at the parameters keeps what is pending. -/
theorem serves_within {p : Serial α} {c : Nat} {s : Rs485} (hp : p.Only (Act.Within c))
    (hs : s.Pending) : Serves h (fun _ => Pending) p s := by
  refine hp.ensures (fun s e hs hk => ⟨?_, fun i r s' _ he => ?_⟩) hs
  · refine hs.runIntact ?_ ?_
    · rintro k rfl
      exact hk.elim
    · rintro a b rfl
      exact hk.elim
  · rcases exec_within (.inl hk) he with ⟨-, rfl⟩ | ⟨-, hf⟩
    · exact Pending.take (s := s.arrive i) hs
    · exact hf.pending hs

/-- A sampling run in which nothing is requested. -/
theorem serves_run {c : Nat} {p : SynInfo} {s : Rs485} (hs : s.Running p) :
    Serves h (fun _ => Running p) (timeHandleFun c) s := by
  refine timeHandleFun_withinRun.ensures (fun s e hs hk => ⟨?_, fun i r s' hno he => ?_⟩) hs
  · exact ⟨fun k _ => ⟨p, hs.last, by rw [hs.synAlongInfo]⟩, hs.chain, fun _ _ _ => ⟨p, hs.last⟩⟩
  · rcases exec_within hk he with ⟨rfl, rfl⟩ | ⟨-, hf⟩
    · exact Running.take (s := s.arrive i) ⟨hs.chain, hs.last, hs.serving, hs.synAlongInfo⟩
        (hno c rfl hs.serving)
    · exact hf.running hs

/-- The control handed back, where nothing pending has it. -/
theorem serves_release {v : Ctrl} {s : Rs485} (hs : s.Pending)
    (hv : s.ctrl = v → ∀ p, s.history.getLast? ≠ some (.requested p)) :
    Serves h (fun _ => Pending) (release v) s := by
  refine ensures_op_bind.2 ⟨hs.runIntact nofun nofun, fun i r s' _ he => ?_⟩
  cases (exec_some he).2
  have hsi : (s.arrive i).Pending := hs
  split
  · rename_i hctrl
    refine ensures_op.2 ⟨hsi.runIntact nofun nofun, fun i r s' _ he => ?_⟩
    cases (exec_some he).2
    exact ⟨hs.1, fun p hp => absurd hp (hv hctrl p)⟩
  · exact hs

theorem serves_serve {p : Serial Int} {v : Ctrl} {c : Nat} {s : Rs485}
    (hp : p.Only (Act.Within c)) (hv : v ≠ .electricalSync) (hs : s.Pending) :
    Serves h (fun _ => Pending) (do
      let rc ← p
      release v
      pure rc) s := by
  refine (serves_within hp hs).bind fun _ s hs => ?_
  have hrel : s.ctrl = v → ∀ p, s.history.getLast? ≠ some (.requested p) := fun hc p hp =>
    hv (hc.symm.trans (hs.2 p hp).1)
  exact (serves_release hs hrel).bind fun _ _ hs => hs

theorem serves_deal {c : Nat} {s : Rs485} (hs : s.Pending) :
    Serves h (fun _ => Pending) (dealMaster485Packet h c) s := by
  refine ensures_op_bind.2 ⟨hs.runIntact nofun nofun, fun i r s' _ he => ?_⟩
  cases (exec_some he).2
  have hs1 : (s.arrive i).Pending := hs
  cases hc : (s.arrive i).ctrl with
  | electricalSync =>
      refine (serves_run (hs1.running hc)).bind fun _ s hs => ?_
      have hrel : s.ctrl = .electricalSync → ∀ p, s.history.getLast? ≠ some (.requested p) := by
        intro _ p hp
        rw [hs.last] at hp
        cases hp
      exact (serves_release hs.pending hrel).bind fun _ _ hs => hs
  | electrical =>
      refine serves_serve dealWiredElectrical_within nofun (hs1.beginServing ?_)
      rw [hc]
      exact nofun
  | actuator =>
      refine serves_serve dealWiredActuator_within nofun (hs1.beginServing ?_)
      rw [hc]
      exact nofun
  | default =>
      have hbegin : (s.arrive i).beginServing.Pending := hs1.beginServing (by rw [hc]; exact nofun)
      refine ensures_op_bind.2 ⟨hbegin.runIntact nofun nofun, fun i' r s' _ he => ?_⟩
      cases (exec_some he).2
      refine ⟨hbegin.1, fun p hp => ?_⟩
      have hctrl := (hbegin.2 p hp).1
      rw [show (s.arrive i).beginServing.ctrl = .default from hc] at hctrl
      cases hctrl

theorem serves_masterWait {s : Rs485} (hs : s.Pending) :
    Serves h (fun _ => Pending) masterWait s := by
  refine ensures_op_bind.2 ⟨hs.runIntact nofun nofun, fun i r s' _ he => ?_⟩
  cases (exec_some he).2
  have hsi : (s.arrive i).Pending := hs
  split
  · refine ensures_op_bind.2 ⟨hsi.runIntact nofun nofun, fun i r s' _ he => ?_⟩
    cases (exec_some he).2
    refine ensures_op.2 ⟨Pending.runIntact hs nofun nofun, fun i r s' _ he => ?_⟩
    cases (exec_some he).2
    exact Pending.take hs
  · exact hs

theorem Rs485.Pending.chooseOperation {s : Rs485} (hs : s.Pending) :
    s.chooseOperation.Pending := by
  rcases chooseOperation_cases s with hc | ⟨hctrl, t, hc | hc⟩
  · rwa [hc]
  all_goals
    rw [hc]
    refine ⟨hs.1, fun p hp => ?_⟩
    have h := (hs.2 p hp).1
    rw [hctrl] at h
    cases h

theorem serves_masterTurn {s : Rs485} (hs : s.Pending) :
    Serves h (fun _ => Pending) (masterTurn h) s := by
  refine (serves_masterWait hs).bind fun _ s hs => ?_
  refine ensures_op_bind.2 ⟨hs.runIntact nofun nofun, fun i r s' _ he => ?_⟩
  have hs' : Pending s' := by
    rw [exec_chooseOperation he]
    exact Pending.chooseOperation (s := s.arrive i) hs
  refine ensures_op_bind.2 ⟨hs'.runIntact nofun nofun, fun i r s' _ he => ?_⟩
  cases (exec_some he).2
  have hs'' : (s'.arrive i).Pending := hs'
  exact (serves_deal hs'').bind fun _ _ hs => hs

/-- A turn that finds a request starts its run. -/
theorem starts_run {allowed : Rs485 → Act → Input → Prop} {s : Rs485}
    (hs : s.ctrl = .electricalSync) :
    Ensures (exec h .master) allowed (fun _ _ => True)
      (fun _ s' => s.history.length < s'.history.length) (masterTurn h) s := by
  -- once it has grown, nothing that follows shortens it
  have hgrow : ∀ {α : Type} {p : Serial α} {t : Rs485}, s.history.length < t.history.length →
      Ensures (exec h .master) allowed (fun _ _ => True)
        (fun _ s' => s.history.length < s'.history.length) p t := by
    intro α p t ht
    have hsteps : Ensures (exec h .master) allowed (fun t _ => s.history.length < t.history.length)
        (fun _ t => s.history.length < t.history.length) p t :=
      ensures_of_steps (fun _ _ _ _ _ hlt he => hlt.trans_le (exec_history he).length_le) ht
    exact hsteps.relax fun _ _ _ => trivial
  have hwait : Ensures (exec h .master) allowed (fun _ _ => True)
      (fun _ s' => s'.ctrl = .electricalSync ∧ s'.history = s.history) masterWait s := by
    refine ensures_op_bind.2 ⟨trivial, fun i r s' _ he => ?_⟩
    cases (exec_some he).2
    have hctrl : (s.arrive i).ctrl = .electricalSync := hs
    rw [hctrl, if_neg (not_not.2 rfl)]
    exact ⟨hs, rfl⟩
  refine hwait.bind fun _ t ht => ?_
  refine ensures_op_bind.2 ⟨trivial, fun i r t' _ he => ?_⟩
  have ht' : t'.ctrl = .electricalSync ∧ t'.history = s.history := by
    rw [exec_chooseOperation he]
    rcases chooseOperation_cases (t.arrive i) with hc | ⟨hd, -⟩
    · rw [hc]
      exact ht
    · cases ht.1.symm.trans hd
  refine ensures_op_bind.2 ⟨trivial, fun i r t'' _ he => ?_⟩
  cases (exec_some he).2
  refine ensures_bind.2 (ensures_op_bind.2 ⟨trivial, fun i' r t'' _ he => ?_⟩)
  cases (exec_some he).2
  have hlast : ((t'.arrive i).arrive i').beginServing.history =
      s.history ++ [.started t'.synAlongInfo] := by
    rw [← ht'.2]
    exact if_pos ht'.1
  refine (hgrow ?_).mono fun _ _ ht => ht
  rw [hlast, List.length_append]
  exact Nat.lt_succ_self _

end Turn

/-! ### Whole runs -/

section Run

variable {h : Host}

/-- What came next, after a history that ends with this request, was another request
or the run with its parameters. -/
def Answered (l : List SynEvent) (p : SynInfo) (c : Config Act Act.Out Rs485) : Prop :=
  ∃ e t, c.state.history = l ++ e :: t ∧ (e = .started p ∨ ∃ q, e = .requested q)

/-- The requests where the thread has got to: the parameters a run is looking at are
its own, and a request that was received is sooner or later answered, on inputs that
are allowed. -/
structure Served (h : Host) (allowed : Rs485 → Act → Input → Prop)
    (c : Config Act Act.Out Rs485) : Prop where
  parameters : c.Good ParametersIntact
  answered : ∀ p, c.state.history.getLast? = some (.requested p) →
    Inevitable (Run.guarded (Admits allowed) (Program.Step (exec h .master) (masterTurn h)))
      (Answered c.state.history p) c

/-- In a history that is chained, what follows a request answers it. -/
theorem answered_of_longer {l : List SynEvent} {p : SynInfo} {s : Rs485} {q : Serial Unit}
    (hl : l.getLast? = some (.requested p)) (hs : s.history.IsChain SynEvent.Next)
    (hpre : l <+: s.history) (hlt : l.length < s.history.length) : Answered l p ⟨s, q⟩ := by
  obtain ⟨t, ht⟩ := hpre
  cases t with
  | nil =>
      rw [← ht, List.append_nil] at hlt
      exact absurd hlt (Nat.lt_irrefl _)
  | cons e t =>
      refine ⟨e, t, ht.symm, ?_⟩
      rw [← ht, List.isChain_append] at hs
      have hnext : SynEvent.Next (.requested p) e := hs.2.2 _ hl _ rfl
      cases e with
      | requested q => exact .inr ⟨q, rfl⟩
      | started q => exact .inl (congrArg _ hnext)

/-- What holds at every operation after the history `l`, on inputs that leave the
thread undisturbed. -/
abbrev Answering (h : Host) (l : List SynEvent) :
    (Unit → Rs485 → Prop) → Serial Unit → Rs485 → Prop :=
  Ensures (exec h .master) (Undisturbed h)
    fun s e => ((s.RunIntact e ∧ s.Follows e) ∧ s.InRange e) ∧ l <+: s.history

theorem Serves.answering {l : List SynEvent} {p : Serial Unit} {s : Rs485}
    (hserves : Serves h (fun _ => Pending) p s) (hsound : Sound h .master (fun _ => Holds) p s)
    (hranged : Ranged h (fun _ s => s.ctx < s.allocated) p s) (hpre : l <+: s.history) :
    Answering h l (fun _ s => ((s.Pending ∧ s.Holds) ∧ s.ctx < s.allocated) ∧ l <+: s.history)
      p s := by
  have hgrow : Ensures (exec h .master) (Undisturbed h) (fun s _ => l <+: s.history)
      (fun _ s => l <+: s.history) p s :=
    ensures_of_steps (fun _ _ _ _ _ hpre he => hpre.trans (exec_history he)) hpre
  exact (((hserves.narrow fun _ _ _ => Undisturbed.request).and
    (hsound.narrow fun _ _ _ hi => hi.settled)).and
    (hranged.narrow fun _ _ _ hi => hi.fits)).and hgrow

/-- A unit with the well numbers 1. -/
def plainUnit : Rtu := .start { emptyMap 38 (fun _ => 0) (fun _ => 0) with ramX := fun _ => 1 }

/-- The thread goes on while the request is not answered. -/
theorem answering_goes_on {l : List SynEvent} {p : SynInfo} {s : Rs485} {e : Act}
    {k : e.Out → Serial Unit} (hl : l.getLast? = some (.requested p))
    (hs : ((s.RunIntact e ∧ s.Follows e) ∧ s.InRange e) ∧ l <+: s.history) :
    Answered l p ⟨s, .call e k⟩ ∨
      ∃ i r s', Undisturbed h s e i ∧ exec h .master e i s = some (r, s') := by
  obtain ⟨⟨⟨hintact, hf⟩, hr⟩, hpre⟩ := hs
  by_cases hlen : l.length < s.history.length
  · exact .inl (answered_of_longer hl hintact.chain hpre hlen)
  · have heq : s.history = l := (hpre.eq_of_length_le (Nat.le_of_not_lt hlen)).symm
    have hd : ∀ a, e ≠ .divide a 0 := by
      rintro a rfl
      obtain ⟨q, hq⟩ := hintact.divides _ _ rfl
      rw [heq, hl] at hq
      cases hq
    -- a wait that ends in time, on a unit whose well numbers fit
    let i : Input := ⟨fun _ => plainUnit, false, none, [], ⟨0, 0⟩⟩
    obtain ⟨r, s', he⟩ := exec_goes_on (h := h) hf hr hd i
    have helec : readWord h.env plainUnit h.stack 1 elecWellNoAddr = 1 := rfl
    have hact : readWord h.env plainUnit h.stack 1 actuatorWellNoAddr = 1 := rfl
    refine .inr ⟨i, r, s', ⟨⟨⟨fun _ => .inl ?_, fun _ => ?_⟩, ?_⟩, ?_⟩, he⟩
    · rw [show readWord h.env (i.others s.rtu) h.stack 1 elecWellNoAddr = 1 from helec]
      decide
    · rw [show readWord h.env (i.others s.rtu) h.stack 1 actuatorWellNoAddr = 1 from hact]
      decide
    · exact fun c _ hready => absurd hready Bool.false_ne_true
    · exact fun c _ _ hready => absurd hready Bool.false_ne_true

/-- **Every request is answered**, and no run's parameters change before they are
used, in every run of the thread that is undisturbed. -/
theorem requests_run (h : Host) {c : Config Act Act.Out Rs485}
    (hc : Runs (exec h .master) (masterTurn h) (Undisturbed h) Starting c) :
    Served h (Undisturbed h) c := by
  have hserves : Serves h (fun _ => Pending) c.rest c.state := by
    refine reach_ensures Pending ?_ (fun s hs => serves_masterTurn hs)
      (Runs.widen hc fun _ _ _ => Undisturbed.request)
    rintro ⟨s, p⟩ ⟨hs, rfl⟩
    have hhist : s.history = [] := hs.history
    refine ⟨?_, fun p hp => ?_⟩
    · rw [hhist]
      exact List.isChain_nil
    · rw [hhist] at hp
      cases hp
  have hsound := sound_rest (Runs.widen hc fun _ _ _ hi => hi.settled)
  have hranged := ranged_rest (Runs.widen hc fun _ _ _ hi => hi.fits)
  refine ⟨good_of_ensures (hserves.relax fun _ _ => RunIntact.parameters), fun p hp => ?_⟩
  have hrest := hserves.answering hsound hranged (List.prefix_refl c.state.history)
  -- the turn ends with the request answered, or still pending at the head of the loop
  refine hrest.inevitable (fun _ _ _ => answering_goes_on hp) ?_
  rintro s ⟨⟨⟨hs, hholds⟩, hctx⟩, hpre⟩
  by_cases hlen : c.state.history.length < s.history.length
  · exact .now (answered_of_longer hp hs.1 hpre hlen)
  · have heq : s.history = c.state.history := (hpre.eq_of_length_le (Nat.le_of_not_lt hlen)).symm
    have hturn := (serves_masterTurn (h := h) hs).answering (sound_masterTurn hholds)
      (ranged_masterTurn hctx) hpre
    refine inevitable_turn (hturn.and (starts_run (hs.2 p (heq ▸ hp)).1))
      (fun _ _ _ hgood => answering_goes_on hp hgood.1) ?_
    rintro s' ⟨⟨⟨hs', -⟩, hpre'⟩, hlt⟩
    rw [heq] at hlt
    exact .now (answered_of_longer hp hs'.1.1 hpre' hlt)

theorem Rs485.Undisturbed.of_ne {s : Rs485} {e : Act} {i : Input}
    (hown : ∀ a, e ≠ .ownWellNo a) (hselect : ∀ c, e ≠ .select c) : Undisturbed h s e i :=
  ⟨.of_ne hown hselect, fun c he => absurd he (hselect c)⟩

theorem Act.Loop.undisturbed {s : Rs485} {e : Act} {i : Input} (he : e.Loop) :
    Undisturbed h s e i := by
  refine ⟨he.inOrder, ?_⟩
  rintro c rfl
  exact he.elim

/-- A run asked for with these parameters, one sample in a cycle of 10 s. -/
def shortRun : SynInfo := ⟨0, 1000, 1⟩

/-- The master at its first look at the parameters of a run that is due. -/
theorem runs_parameters {s : Rs485} (hs : s.Holds) (hctrl : s.ctrl = .electricalSync)
    (hread : (readWord h.env s.rtu h.stack 1 elecWellNoAddr).toNat ≤ 247)
    (hrun : Runs (exec h .master) (masterTurn h) (Undisturbed h) Starting ⟨s, afterWait h⟩) :
    ∃ (t : Rs485) (k : UInt16 → Serial Unit),
      t.history = s.history ++ [.started s.synAlongInfo] ∧
        Runs (exec h .master) (masterTurn h) (Undisturbed h) Starting ⟨t, .call (.syn 1) k⟩ := by
  let rest := calm false none ⟨0, 0⟩
  have hchoose : (s.arrive rest).chooseOperation = s := by
    rcases chooseOperation_cases (s.arrive rest) with hc | ⟨hd, -⟩
    · exact hc
    · cases hctrl.symm.trans hd
  unfold afterWait at hrun
  have hrun := Runs.op (i := rest) hrun (Act.Loop.undisturbed trivial)
    ((exec_eq (follows_of_none rfl)).trans rfl)
  rw [hchoose] at hrun
  have hrun := Runs.op (i := rest) hrun (Act.Loop.undisturbed trivial)
    ((exec_eq (follows_of_none rfl)).trans rfl)
  unfold dealMaster485Packet at hrun
  rw [Prog.bind_assoc] at hrun
  have hswitch : exec h .master .switchCtrl rest s = some (.electricalSync, s.beginServing) :=
    (exec_eq (follows_of_none rfl)).trans (congrArg (fun c => some (c, s.beginServing)) hctrl)
  have hrun := Runs.op hrun (Act.Loop.undisturbed trivial) hswitch
  dsimp only at hrun
  unfold timeHandleFun at hrun
  simp only [Prog.bind_assoc] at hrun
  have hrun := Runs.op (i := rest) hrun ⟨⟨⟨fun _ => .inl hread, nofun⟩, nofun⟩, nofun⟩
    ((exec_eq (follows_of_none rfl)).trans rfl)
  have hrun := Runs.op (i := rest) hrun (.of_ne (by simp) (by simp))
    ((exec_eq (follows_of (c := s.ctx) (s := s.beginServing) rfl hs)).trans rfl)
  have hrun := Runs.op (i := rest) hrun (.of_ne (by simp) (by simp))
    ((exec_eq (follows_of_none rfl)).trans rfl)
  have hhist : s.beginServing.history = s.history ++ [.started s.synAlongInfo] := if_pos hctrl
  refine ⟨_, _, ?_, hrun⟩
  exact hhist

/-- The request is received in the master's own wait, and its run comes to look at its
parameters. -/
theorem shortRun_served : ∃ (s t : Rs485) (k : UInt16 → Serial Unit),
    s.history = [.requested shortRun] ∧ t.history = [.requested shortRun, .started shortRun] ∧
      Served (.bare (.bare fun _ => none)) (Undisturbed (.bare (.bare fun _ => none)))
        ⟨s, afterWait (.bare (.bare fun _ => none))⟩ ∧
      Served (.bare (.bare fun _ => none)) (Undisturbed (.bare (.bare fun _ => none)))
        ⟨t, .call (.syn 1) k⟩ := by
  let h := Host.bare (.bare fun _ => none)
  let i : Input := ⟨fun _ => wellUnit 3, true, some (.loadElecSysn 0 1000 1 1), [], ⟨0, 0⟩⟩
  have hfree : ∀ s e i, Act.Loop e → Undisturbed h s e i := fun _ _ _ => Act.Loop.undisturbed
  have hwaited := runs_waited (h := h) (s := startedMaster) (i := i) rfl rfl hfree
    (Runs.again (.start startedMaster_starting))
  obtain ⟨t, k, hhist, hrun⟩ := runs_parameters (by rfl) (by rfl) (by decide) hwaited
  exact ⟨_, t, k, rfl, hhist, requests_run h hwaited, requests_run h hrun⟩

end Run

/-! ### The lost request -/

section Lost

variable {h : Host} {α β : Type}

/-- A timer that is not due, a context that is allocated, nothing asked for. -/
structure Resting (s : Rs485) : Prop where
  alive : (s.contexts s.ctx).alive = true
  electrical : ¬ UInt32.ofInt s.rtu.time - s.electricalSampleTime >
    s.electricalSampleInterval.toUInt32
  actuator : ¬ UInt32.ofInt s.rtu.time - s.actuatorSampleTime > s.actuatorSampleInterval.toUInt32

/-- What the thread may come to, through states where `I` holds. -/
abbrev Comes (h : Host) (I : Rs485 → Prop) (post : α → Rs485 → Prop) : Serial α → Rs485 → Prop :=
  May (exec h .master) I post

theorem comes_op {I : Rs485 → Prop} {post : β → Rs485 → Prop} {e : Act} {f : e.Out → Serial β}
    {s s' : Rs485} {r : e.Out} (ready : Bool) (msg : Option Msg) (clock : Timeval) (hI : I s)
    (hf : s.Follows e) (hp : perform h .master e (calm ready msg clock) s = some (r, s'))
    (hk : Comes h I post (f r) s') : Comes h I post (Prog.op e >>= f) s :=
  may_op_bind hI ((exec_eq hf).trans hp) hk

/-- A turn with nothing to do. -/
theorem comes_idle {I : Rs485 → Prop} {s : Rs485} (hs : Resting s) (hctrl : s.ctrl = .default)
    (hI : I s) (hI' : I { s with serving := .default }) :
    Comes h I (fun _ s' => s' = { s with serving := .default }) (masterTurn h) s := by
  have hchoose : s.chooseOperation = s := by
    unfold Rs485.chooseOperation
    dsimp only
    rw [if_neg (fun hc => hs.electrical hc.1), if_neg (fun hc => hs.actuator hc.1)]
  have hbegin : s.beginServing = { s with serving := .default } := by
    cases s
    cases hctrl
    rfl
  refine may_bind.2 (comes_op false none ⟨0, 0⟩ hI nofun rfl ?_)
  rw [if_pos (by rw [hctrl]; exact nofun)]
  refine comes_op false none ⟨0, 0⟩ hI nofun rfl ?_
  refine ⟨hI, calm false none ⟨0, 0⟩, (), s, exec_eq (follows_of rfl hs.alive), ?_⟩
  refine comes_op false none ⟨0, 0⟩ hI nofun (congrArg (fun t => some ((), t)) hchoose) ?_
  refine comes_op false none ⟨0, 0⟩ hI nofun rfl ?_
  refine may_bind.2 (comes_op false none ⟨0, 0⟩ hI nofun
    (congrArg (fun t => some (s.ctrl, t)) hbegin) ?_)
  rw [hctrl] at hI' ⊢
  refine comes_op false none ⟨0, 0⟩ hI' nofun rfl ?_
  exact rfl

/-- Reads that fail because nothing can be sent. -/
theorem comes_failed {c : Nat} {synT1 : Timeval} {s : Rs485} (hc : (s.contexts c).alive = true)
    (tries : Nat) : Comes h (fun _ => True) (fun o s' => o = .failed ∧ s' = s)
      (sampleOnce c synT1 tries) s := by
  induction tries with
  | zero => exact ⟨rfl, rfl⟩
  | succ tries ih =>
      refine comes_op false none synT1 trivial nofun rfl ?_
      rw [if_neg (by simp [calm])]
      exact may_bind.2 (comes_op false none synT1 trivial (follows_of rfl hc) rfl ih)

/-- The thread after a request. -/
def afterRequest (q : SynInfo) (s : Rs485) : Rs485 :=
  { s with ctrl := .electricalSync, synAlongInfo := q, history := s.history ++ [.requested q] }

/-- A request received in the first read for a sample, which fails like the others. -/
theorem comes_requested {c : Nat} {synT1 : Timeval} {q : SynInfo} {s : Rs485}
    (hc : (s.contexts c).alive = true) : Comes h (fun _ => True)
      (fun o s' => o = .failed ∧ ∃ sent, s' = { afterRequest q s with sent := sent })
      (sampleOnce c synT1 6) s := by
  let msg : Msg := .loadElecSysn q.synchronTime q.cycleTime q.samplePoints 1
  have hrest : ∀ t : Rs485, (t.contexts c).alive = true →
      (∃ sent, t = { afterRequest q s with sent := sent }) → Comes h (fun _ => True)
        (fun o s' => o = .failed ∧ ∃ sent, s' = { afterRequest q s with sent := sent })
        (sampleOnce c synT1 5) t := fun t ht hs =>
    (comes_failed ht 5).mono fun o t' ho => ⟨ho.1, ho.2 ▸ hs⟩
  refine comes_op false none synT1 trivial nofun rfl ?_
  rw [if_neg (by simp [calm])]
  -- the request goes out, the wait below it brings the message and no byte
  refine may_bind.2 (may_bind.2 (comes_op true none synT1 trivial (follows_of rfl hc) rfl ?_))
  refine may_bind.2 (may_bind.2 ?_)
  rw [receive, dif_neg (Nat.succ_ne_zero _)]
  refine comes_op (r := true) true (some msg) synT1 trivial (follows_of rfl hc) rfl ?_
  rw [if_pos rfl]
  refine comes_op (r := []) false none synT1 trivial (follows_of rfl hc) rfl ?_
  rw [dif_pos rfl]
  exact hrest _ hc ⟨_, rfl⟩

/-- Its plan. -/
theorem comes_shortPlan {s : Rs485} (hs : s.synAlongInfo = shortRun) :
    Comes h (fun _ => True) (fun o s' => o = (1, ⟨1, 10000⟩) ∧ s' = s) samplePlan s := by
  have hsyn : ∀ k, perform h .master (.syn k) (calm false none ⟨0, 0⟩) s =
      some (shortRun.word k, s) := fun k => by rw [← hs]; rfl
  refine comes_op false none ⟨0, 0⟩ trivial nofun (hsyn 2) ?_
  refine comes_op false none ⟨0, 0⟩ trivial nofun (hsyn 1) ?_
  refine comes_op (r := 10000) false none ⟨0, 0⟩ trivial nofun rfl ?_
  rw [if_neg (by decide)]
  exact ⟨rfl, rfl⟩

/-- A run that receives a request in its first read and gives up. -/
theorem comes_lostRun {c : Nat} {q : SynInfo} {w : UInt16} {synT0 : Timeval} {s : Rs485}
    (hc : (s.contexts c).alive = true) (hs : s.synAlongInfo = shortRun) :
    Comes h (fun _ => True) (fun _ s' => ∃ sent, s' = { afterRequest q s with sent := sent })
      (sampleRun c w synT0) s := by
  refine may_bind.2 ((comes_shortPlan hs).mono ?_)
  rintro _ _ ⟨rfl, rfl⟩
  refine comes_op false none ⟨0, 0⟩ trivial nofun rfl ?_
  refine comes_op false none ⟨0, 0⟩ trivial nofun rfl ?_
  refine comes_op false none ⟨0, 0⟩ trivial (follows_of rfl hc) rfl ?_
  refine may_bind.2 (may_bind.2 ((comes_requested (q := q) hc).mono ?_))
  rintro _ _ ⟨rfl, hsent⟩
  exact hsent

theorem comes_lost {c : Nat} {q : SynInfo} {s : Rs485} (hc : (s.contexts c).alive = true)
    (hs : s.synAlongInfo = shortRun) : Comes h (fun _ => True)
      (fun _ s' => ∃ x sent, Context.alive x = true ∧ s' = { afterRequest q s with
        contexts := Function.update s.contexts c x, sent := sent })
      (timeHandleFun c) s := by
  have hsyn : ∀ (t : Rs485) k, t.synAlongInfo = shortRun →
      perform h .master (.syn k) (calm false none ⟨0, 0⟩) t = some (shortRun.word k, t) :=
    fun t k ht => by rw [← ht]; rfl
  refine comes_op false none ⟨0, 0⟩ trivial nofun rfl ?_
  refine comes_op false none ⟨0, 0⟩ trivial (follows_of rfl hc) rfl ?_
  refine comes_op false none ⟨0, 0⟩ trivial nofun rfl ?_
  refine comes_op false none ⟨0, 0⟩ trivial nofun (hsyn _ 1 hs) ?_
  refine comes_op false none ⟨0, 0⟩ trivial nofun (hsyn _ 0 hs) ?_
  refine comes_op false none ⟨0, 0⟩ trivial nofun (hsyn _ 1 hs) ?_
  rw [if_neg (by decide)]
  refine comes_op false none ⟨0, 0⟩ trivial nofun (hsyn _ 1 hs) ?_
  rw [if_neg (by decide)]
  refine (comes_lostRun (q := q) ?_ ?_).mono ?_
  · simpa [Rs485.onContext, Context.setSlave] using hc
  · exact hs
  · rintro _ s' ⟨sent, hs'⟩
    exact ⟨Context.setSlave _ (s.contexts c), sent, hc, hs'⟩

/-- The first turn of a master that is asked for a run, and for another during it. -/
theorem comes_lostTurn {q : SynInfo} {s : Rs485} (hs : Resting s) (hctrl : s.ctrl = .default) :
    Comes h (fun _ => True) (fun _ s' => Resting s' ∧ s'.ctrl = .default ∧
        s'.history = s.history ++ [.requested shortRun, .started shortRun, .requested q])
      (masterTurn h) s := by
  refine may_bind.2 (comes_op false none ⟨0, 0⟩ trivial nofun rfl ?_)
  rw [if_pos (by rw [hctrl]; exact nofun)]
  refine comes_op false none ⟨0, 0⟩ trivial nofun rfl ?_
  let msg : Msg := .loadElecSysn 0 1000 1 1
  refine ⟨trivial, calm true (some msg) ⟨0, 0⟩, (), afterRequest shortRun s,
    exec_eq (follows_of rfl hs.alive), ?_⟩
  have hchoose : (afterRequest shortRun s).chooseOperation = afterRequest shortRun s := by
    rcases chooseOperation_cases (afterRequest shortRun s) with hc | ⟨hd, -⟩
    · exact hc
    · cases hd
  show Comes h (fun _ => True) _ (Serial.chooseOperation >>= fun _ => getCtx >>= fun c =>
    dealMaster485Packet h c >>= fun _ => pure ()) _
  refine comes_op false none ⟨0, 0⟩ trivial nofun (congrArg (fun t => some ((), t)) hchoose) ?_
  refine comes_op false none ⟨0, 0⟩ trivial nofun rfl ?_
  refine may_bind.2 (comes_op false none ⟨0, 0⟩ trivial nofun rfl ?_)
  refine may_bind.2 ((comes_lost (q := q) ?_ ?_).mono ?_)
  · exact hs.alive
  · rfl
  rintro _ _ ⟨x, sent, hx, rfl⟩
  -- the request is the latest, and the control it asked for is taken back
  refine may_bind.2 (comes_op false none ⟨0, 0⟩ trivial nofun rfl ?_)
  dsimp only [afterRequest]
  rw [if_pos rfl]
  refine ⟨trivial, calm false none ⟨0, 0⟩, (), _, exec_eq nofun, ?_⟩
  refine ⟨⟨?_, hs.electrical, hs.actuator⟩, rfl, ?_⟩
  · show Context.alive (Function.update s.contexts s.ctx x s.ctx) = true
    simpa using hx
  · show (s.history ++ [.requested shortRun] ++ [.started shortRun]) ++ [.requested q] = _
    simp

theorem resting_of_zero {s : Rs485} (ha : (s.contexts s.ctx).alive = true)
    (ht : s.rtu.time = 0) (he : s.electricalSampleTime = 0) (hact : s.actuatorSampleTime = 0) :
    Resting s := by
  refine ⟨ha, ?_, ?_⟩
  · rw [ht, he]
    exact UInt32.not_lt_zero
  · rw [ht, hact]
    exact UInt32.not_lt_zero

theorem startedMaster_resting : Resting startedMaster := by
  unfold startedMaster Rs485.start Rs485.openPort Rs485.readPortInfo
  split <;> exact resting_of_zero rfl rfl rfl rfl

/-- A master asked for a run receives another request during it, and idles from then
on. -/
theorem request_lost : ¬ ∀ (h : Host) (c : Config Act Act.Out Rs485),
    Runs (exec h .master) (masterTurn h) (fun _ _ _ => True) Starting c →
      Served h (fun _ _ _ => True) c := by
  intro hserved
  let h := Host.bare (.bare fun _ => none)
  have hstart : Runs (exec h .master) (masterTurn h) (fun _ _ _ => True) Starting
      ⟨startedMaster, masterTurn h⟩ :=
    Runs.again (.start startedMaster_starting)
  have hlost := comes_lostTurn (h := h) (q := shortRun) startedMaster_resting
    startedMaster_starting.1.ctrl
  obtain ⟨s, ⟨hs, hctrl, hhist⟩, hreach⟩ := hlost.reach hstart
  let I : Rs485 → Prop := fun t => t.history = s.history
  have hidle : Comes h I (fun _ t => t = { s with serving := .default }) (masterTurn h) s :=
    comes_idle hs hctrl rfl rfl
  obtain ⟨_, rfl, hreach⟩ := hidle.reach (Runs.again hreach)
  have hlast : s.history.getLast? = some (.requested shortRun) := by
    rw [hhist]
    rfl
  refine not_inevitable_idle (I := I) ?_ ?_ ?_ ((hserved h _ hreach).answered shortRun hlast)
  · exact comes_idle ⟨hs.alive, hs.electrical, hs.actuator⟩ hctrl rfl rfl
  · rfl
  · rintro c ⟨e, t, hc, -⟩ hI
    rw [hI] at hc
    simp at hc

end Lost

end RtuA118
